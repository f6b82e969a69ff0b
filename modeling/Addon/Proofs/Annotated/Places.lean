import Addon.Proofs.Annotated.Dependence
import Addon.Proofs.Annotated.Walk
import Addon.Proofs.TypeTag

/-!
# Places — every complaint about a script names what it is about

Complaints are made in many functions, some about an expression at hand and some about the method
that is being read. `Blames` lists what a complaint about a method can be about, violation by
violation. In particular an argument or a default without a static value is blamed itself, so that
no refusal of the evaluator is passed on without a place.

## The architecture

* **`Held Q`** — a failure that is a complaint has a location, and its violation and place are in
  `Q`. The functions that read a method are bounded link by link with `FailsOnly (Held Q)`.
* **`Misused`** — what is wrong with one of the arguments of a marker; shared by the markers
  of methods and parameters.
* **`failsOnly_readMethod`** — a method only fails with complaints that `Blames` lists.
* **`StopsInClass`, `StopsInMethod`** — where a walk that fails has come to.
-/

namespace Addon

open Script Source

/-- The complaint gives a place: the line that it starts in and the byte
column, counted from one. -/
def Complaint.IsAt (c : Complaint) (x : Extent) : Prop :=
  ∃ code, c.location = some ⟨x.start.line, x.start.column + 1, code⟩

/-- If a failure is a complaint, it gives a place, and the violation there is one of these. -/
def Held (Q : Violation → Extent → Prop) : Failure → Prop
  | .complaint c => ∃ x, Q c.violation x ∧ c.IsAt x
  | _ => True

section Held

variable {α : Type} {scope : Scope} {Q R : Violation → Extent → Prop} {v : Violation} {x : Extent}

theorem Held.mono {f : Failure} (h : ∀ v x, Q v x → R v x) (hf : Held Q f) : Held R f := by
  cases f with
  | complaint c => exact hf.imp fun x hx => ⟨h _ x hx.1, hx.2⟩
  | _ => trivial

theorem failsOnly_held {y : Attempt α} (h : ∀ c, y ≠ .error (.complaint c)) :
    FailsOnly (Held Q) y := by
  rintro f rfl
  cases f with
  | complaint c => exact absurd rfl (h c)
  | _ => trivial

/-- The location of an extent is where it starts. -/
theorem exists_code {source : Option (List Char)} {location : Option Location}
    (h : Location.ofMark? (.ofExtent x) source = .ok location) :
    ∃ code, location = some ⟨x.start.line, x.start.column + 1, code⟩ := by
  simp only [Location.ofMark?, Mark.ofExtent] at h
  cases source with
  | none => exact ⟨none, (Except.ok.inj h).symm⟩
  | some source =>
    obtain ⟨code, -, hcode⟩ := bind_eq_ok.mp h
    exact ⟨_, (Except.ok.inj hcode).symm⟩

/-- A complaint is about its own place or else about that of its scope. -/
theorem failsOnly_complain {place : Option Mark}
    (hplace : place.or scope.place = some (.ofExtent x)) (h : Q v x) :
    FailsOnly (Held Q) (complain scope v place : Attempt α) := by
  unfold complain Scope.locate
  rw [hplace]
  dsimp only
  split
  · next location hlocation => exact failsOnly_error ⟨x, h, exists_code hlocation⟩
  · exact failsOnly_error trivial

theorem failsOnly_complainAt {e : Expr} (h : Q v e.extent) :
    FailsOnly (Held Q) (complainAt scope v e : Attempt α) :=
  failsOnly_complain rfl h

end Held

namespace Annotated

/-! ## What can be blamed -/

/-- The keys and values of a dict display. -/
def dictParts : Expr → List Expr
  | .dict _ items => items.flatMap fun item => item.key.toList ++ [item.value]
  | _ => []

/-- The option expressions of a marker: its arguments, and the keys and values of
dict displays among them. -/
def optionParts : Expr → List Expr
  | .call _ _ args keywords => args ++ args.flatMap dictParts ++ keywords.map (·.value)
  | _ => []

/-- The parts of an annotation that can be markers. -/
def noteMarkers (note : Expr) : List Expr :=
  note :: (annotatedItems? note).getD []

/-- What is wrong with one of some expressions: the evaluator refuses it, or it is no option. -/
inductive Misused (env : Static.Env) (es : List Expr) : Violation → Extent → Prop
  | refused {e : Expr} {key : String} {refusal : Static.Refusal} (he : e ∈ es)
      (h : Static.evalIn env e = .error (.refused refusal)) :
      Misused env es (.notStatic key) e.extent
  | noOption {v : Violation} {e : Expr} (he : e ∈ es)
      (hv : v ∈ [.optionUnpacking, .optionKeyNoText, .keywordUnpacking]) : Misused env es v e.extent

/-- The positional parameters of a method. -/
def Method.positional (m : Method) : List Script.Param :=
  m.params.positionalOnly ++ m.params.ordinary

/-- What a complaint about a method is about: the method, one of its decorators, parameters or
annotations, an option expression of a marker among these, or a default. -/
inductive Blames (env : Static.Env) (m : Method) : Violation → Extent → Prop
  | method {v : Violation} (hv : v ∈
      [.severalMarkers m.name, .openParameters m.name, .categoryNoText m.name]) :
      Blames env m v m.extent
  | duplicate (kind : Ace.Kind) (owner : String) :
      Blames env m (.duplicate kind m.name owner) m.extent
  | decorator {v : Violation} {e : Expr} (he : e ∈ m.decorators) (hv : v ∈
      [.noDecoratorSign, .unknownMarker m.name,
        .starArguments m.name, .optionArgument m.name, .displayTextNoText m.name]) :
        Blames env m v e.extent
  | argument {v : Violation} {e : Expr} {x : Extent} (he : e ∈
      m.decorators) (h : Misused env (optionParts e) v x) :
      Blames env m v x
  | param {v : Violation} {p : Script.Param} (hp : p ∈ m.positional)
      (hv : v ∈ [.paramIdNoText p.name, .itemsNoSingleKeys p.name]) : Blames env m v p.extent
  | note {v : Violation} {p : Script.Param} {note e : Expr} (hp : p ∈
      m.positional) (hnote : p.annotation = some note)
      (he : e ∈ noteMarkers note)
      (hv : v ∈ [.severalParamMarkers p.name, .paramOptionArgument p.name]) :
      Blames env m v e.extent
  | paramOption {v : Violation} {p : Script.Param} {note e : Expr} {x : Extent}
      (hp : p ∈ m.positional) (hnote : p.annotation = some note) (he : e ∈ noteMarkers note)
      (h : Misused env (optionParts e) v x) :
      Blames env m v x
  | default {e : Expr} {refusal : Static.Refusal} (he : e ∈ m.params.defaults)
      (h : Static.evalIn env e = .error (.refused refusal)) :
      Blames env m (.notStatic "initialValue") e.extent

/-! ## Options -/

section Options

variable {scope : Scope} {env : Static.Env} {Q : Violation → Extent → Prop} {es : List Expr}

theorem failsOnly_resolve {key : String} {e : Expr}
    (h : ∀ refusal, Static.evalIn env e = .error (.refused refusal) → Q (.notStatic key) e.extent) :
    FailsOnly (Held Q) (Static.resolve scope env key e) := by
  unfold Static.resolve
  split
  · exact failsOnly_ok _
  · next refusal hrefused => exact failsOnly_complainAt (h refusal hrefused)
  · exact failsOnly_error trivial

theorem failsOnly_resolveEntries {items : List DictItem} (options : Fields Value)
    (h : ∀ e ∈ items.flatMap fun item => item.key.toList ++ [item.value], e ∈ es) :
    FailsOnly (Held (Misused env es)) (Static.resolveEntries scope env options items) := by
  fun_induction Static.resolveEntries scope env options items with
  | case1 options => exact failsOnly_ok _
  | case2 options value rest => exact failsOnly_complainAt (.noOption (h _ (by simp)) (by simp))
  | case3 options x key y value rest ih =>
    exact (failsOnly_resolve fun refusal => .refused (h _ (by simp))).bind fun v =>
      ih v fun e he => h e (by simp [he])
  | case4 options key value rest _ =>
    exact failsOnly_complainAt (.noOption (h _ (by simp)) (by simp))

theorem failsOnly_resolveKeywordsInto {keywords : List Keyword} (options : Fields Value)
    (h : ∀ e ∈ keywords.map (·.value), e ∈ es) :
    FailsOnly (Held (Misused env es)) (Static.resolveKeywordsInto scope env options keywords) := by
  fun_induction Static.resolveKeywordsInto scope env options keywords with
  | case1 options => exact failsOnly_ok _
  | case2 options value rest => exact failsOnly_complainAt (.noOption (h _ (by simp)) (by simp))
  | case3 options name value rest ih =>
    exact (failsOnly_resolve fun refusal => .refused (h _ (by simp))).bind fun v =>
      ih v fun e he => h e (by simp [he])

variable {x : Extent} {callee : Expr} {args : List Expr} (keywords : List Keyword)

theorem failsOnly_given {y : Extent} {items : List DictItem} (h : .dict y items ∈ args) :
    FailsOnly (Held (Misused env (optionParts (.call x callee args keywords))))
      (Static.resolveOptions scope env (some (.dict y items))) := by
  refine failsOnly_resolveEntries [] fun e he => ?_
  exact List.mem_append_left _ (List.mem_append_right _ (List.mem_flatMap.mpr ⟨_, h, he⟩))

theorem failsOnly_named :
    FailsOnly (Held (Misused env (optionParts (.call x callee args keywords))))
    (Static.resolveKeywords scope env keywords) :=
  failsOnly_resolveKeywordsInto [] fun _ he => List.mem_append_right _ he

end Options

/-! ## Methods and their parameters -/

section Methods

variable {scope : Scope} {r : Reading} {m : Method} {Q : Violation → Extent → Prop}

theorem failsOnly_markerOf (e : Expr) : FailsOnly (Held Q) (r.markerOf e) := by
  refine failsOnly_held fun c => ?_
  unfold Reading.markerOf
  cases r.names.resolve e <;> simp [Attempt.ofPrint]

theorem failsOnly_offsetOf (index : Index) (p : Position) :
    FailsOnly (Held Q) (offsetOf index p) := by
  refine failsOnly_held fun c => ?_
  unfold offsetOf
  split <;> simp

theorem failsOnly_spanOf (start stop : Nat) : FailsOnly (Held Q) (spanOf start stop) := by
  refine failsOnly_held fun c => ?_
  unfold spanOf
  cases Span.make start stop <;> simp [Attempt.ofSpans]

theorem failsOnly_decoratorSpan (index : Index) {e : Expr} (h : Q .noDecoratorSign e.extent) :
    FailsOnly (Held Q) (decoratorSpan scope index e) := by
  refine (failsOnly_offsetOf _ _).bind fun start => (failsOnly_offsetOf _ _).bind fun stop => ?_
  split
  · exact failsOnly_complainAt h
  · exact .ite (failsOnly_spanOf _ _) (failsOnly_spanOf _ _)

theorem failsOnly_markedDecorators (es : List Expr) :
    FailsOnly (Held Q) (markedDecorators r es) := by
  induction es with
  | nil => exact failsOnly_ok _
  | cons e rest ih =>
    exact (failsOnly_markerOf e).bind fun marker => ih.bind fun others => failsOnly_ok _

theorem failsOnly_paramMarkers (place : Nat) (es : List Expr) :
    FailsOnly (Held Q) (paramMarkers r place es) := by
  induction es generalizing place with
  | nil => exact failsOnly_ok _
  | cons e rest ih =>
    exact (failsOnly_markerOf e).bind fun marker => (ih _).bind fun others => failsOnly_ok _

/-- Types are looked up without complaints: a text that is no annotation stands for any type. -/
theorem failsOnly_nameOf {forward : String → Except ParseError (Option String)}
    (h : ∀ text, FailsOnly (· ≠ .invalid) (forward text)) (e : Expr) :
    FailsOnly (· ≠ .invalid) (TypeTag.nameOf forward e) := by
  fun_induction TypeTag.nameOf forward e with
  | case4 => exact h _
  | case5 x value y first rest ih ih' =>
    exact ih.bind fun name => .ite ih' (failsOnly_ok _)
  | case6 x value _ _ ih => exact ih.bind fun name => failsOnly_ok _
  | _ => exact failsOnly_ok _

theorem failsOnly_forwardName (depth : Nat) (text : String) :
    FailsOnly (· ≠ .invalid) (TypeTag.forwardName depth text) := by
  induction depth generalizing text with
  | zero => exact failsOnly_ok _
  | succ depth ih =>
    rw [TypeTag.forwardName]
    split
    · exact failsOnly_ok _
    · next e he _ => exact failsOnly_error he
    · exact failsOnly_ok _
    · exact failsOnly_nameOf ih _

theorem failsOnly_ofExpr? (e : Option Expr) :
    FailsOnly (Held Q) (Attempt.ofParse (TypeTag.ofExpr? e)) := by
  have htag : FailsOnly (· ≠ .invalid) (TypeTag.ofExpr? e) := by
    cases e with
    | none => exact failsOnly_ok _
    | some e =>
      refine (failsOnly_nameOf (fun text => failsOnly_forwardName _ text) e).bind fun name => ?_
      split <;> exact failsOnly_ok _
  refine failsOnly_held fun c => ?_
  cases htag' : TypeTag.ofExpr? e with
  | ok tag => simp [Attempt.ofParse]
  | error err =>
    cases err with
    | invalid => exact absurd rfl (htag _ htag')
    | _ => simp [Attempt.ofParse]

theorem failsOnly_displayText {decorator : Expr} (he : decorator ∈ m.decorators)
    {text : Option Expr} (htext : ∀ e ∈ text, e ∈ optionParts decorator) (options : Fields Value) :
    FailsOnly (Held (Blames r.env m)) (displayText scope r.env m.name decorator text options) := by
  have hargument :
      ∀ e ∈ text, FailsOnly (Held (Blames r.env m)) (Static.resolve scope r.env "displayText" e) :=
    fun e hmem => failsOnly_resolve fun refusal hrefused =>
      .argument he (.refused (htext e hmem) hrefused)
  rcases text with - | e
  · refine FailsOnly.bind (failsOnly_ok ((options.get? "displayText").getD .null)) fun v => ?_
    dsimp only
    split
    · exact failsOnly_ok _
    · exact failsOnly_ok _
    · exact failsOnly_complainAt (.decorator he (by simp))
  · refine (hargument e rfl).bind fun v => ?_
    dsimp only
    split
    · exact failsOnly_ok _
    · exact failsOnly_ok _
    · exact failsOnly_complainAt (.decorator he (by simp))

theorem failsOnly_markerArguments (marker : MethodMarker) {decorator : Expr}
    (he : decorator ∈ m.decorators) :
    FailsOnly (Held (Blames r.env m)) (markerArguments scope r.env m.name marker decorator) := by
  have hargument : ∀ f, Held (Misused r.env (optionParts decorator)) f → Held (Blames r.env m) f :=
    fun f => Held.mono fun v x => .argument he
  unfold markerArguments
  split
  · next x callee args keywords =>
    refine .ite (failsOnly_complainAt (.decorator he (by simp))) ?_
    split
    · exact failsOnly_complainAt (.decorator he (by simp))
    · next text options hsplit =>
      have hparts : FailsOnly (Held (Blames r.env m)) (Static.resolveOptions scope r.env options) ∧
          ∀ e ∈ text, e ∈ args := by
        unfold splitArguments? at hsplit
        split at hsplit <;> cases hsplit
        · exact ⟨failsOnly_ok _, by simp⟩
        · exact ⟨(failsOnly_given keywords (by simp)).mono hargument, by simp⟩
        · exact ⟨failsOnly_ok _, by simp⟩
        · exact ⟨(failsOnly_given keywords (by simp)).mono hargument, by simp⟩
      refine hparts.1.bind fun given =>
        ((failsOnly_named keywords).mono hargument).bind fun named => ?_
      refine (failsOnly_displayText he (fun e hmem => ?_) _).bind fun text => failsOnly_ok _
      exact List.mem_append_left _ (List.mem_append_left _ (hparts.2 e hmem))
  · exact failsOnly_ok _

variable {param : Script.Param} {default : Option Expr}

theorem failsOnly_metadataSpans (annotated : Expr) (items : List Expr) (place : Nat) :
    FailsOnly (Held Q) (metadataSpans r.index annotated items place) := by
  unfold metadataSpans
  split
  · refine (failsOnly_offsetOf _ _).bind fun _ => (failsOnly_offsetOf _ _).bind fun _ => ?_
    refine (failsOnly_spanOf _ _).bind fun opening => (failsOnly_offsetOf _ _).bind fun _ => ?_
    exact (failsOnly_offsetOf _ _).bind fun _ => (failsOnly_spanOf _ _).bind fun closing =>
      failsOnly_ok _
  · split
    · refine (failsOnly_offsetOf _ _).bind fun _ => (failsOnly_offsetOf _ _).bind fun _ => ?_
      exact (failsOnly_spanOf _ _).bind fun s => failsOnly_ok _
    · exact failsOnly_ok _

theorem failsOnly_readNote (hp : param ∈ m.positional) :
    FailsOnly (Held (Blames r.env m)) (readNote scope r param) := by
  unfold readNote
  split
  · exact failsOnly_ok _
  · next x name note =>
    refine (failsOnly_markerOf note).bind fun marker => .ite ?_ ?_
    · refine FailsOnly.bind ?_ fun s => failsOnly_ok _
      exact (failsOnly_offsetOf _ _).bind fun _ => (failsOnly_offsetOf _ _).bind fun _ =>
        failsOnly_spanOf _ _
    · split
      · exact failsOnly_ok _
      · next items hitems =>
        refine (failsOnly_paramMarkers 1 _).bind fun found => ?_
        split
        · exact failsOnly_ok _
        · exact (failsOnly_metadataSpans note items _).bind fun spans => failsOnly_ok _
        · exact failsOnly_complainAt (.note hp rfl List.mem_cons_self (by simp))

/-- The marker of a parameter is in its annotation. -/
theorem mem_noteMarkers {n : Note} (h : readNote scope r param = .ok n) {e : Expr}
    (he : n.marker = some e) :
    ∃ note, param.annotation = some note ∧ e ∈ noteMarkers note := by
  unfold readNote at h
  split at h
  · cases Except.ok.inj h
    cases he
  · next x name note =>
    refine ⟨note, rfl, ?_⟩
    obtain ⟨marker, -, h⟩ := bind_eq_ok.mp h
    split at h
    · obtain ⟨s, -, h⟩ := bind_eq_ok.mp h
      cases Except.ok.inj h
      cases he
      exact List.mem_cons_self
    · split at h
      · cases Except.ok.inj h
        cases he
      · next items hitems =>
        obtain ⟨found, hfound, h⟩ := bind_eq_ok.mp h
        have hmem := (alike_paramMarkers (r := r) rfl 1 items.tail found found hfound hfound).2
        split at h
        · cases Except.ok.inj h
          cases he
        · obtain ⟨spans, -, h⟩ := bind_eq_ok.mp h
          cases Except.ok.inj h
          cases he
          rw [noteMarkers, hitems]
          exact List.mem_cons_of_mem _ (List.mem_of_mem_tail (hmem _ List.mem_cons_self))
        · exact absurd h complain_ne_ok

theorem failsOnly_paramOptions {n : Note} (hp : param ∈ m.positional)
    (hn : readNote scope r param = .ok n) :
    FailsOnly (Held (Blames r.env m)) (paramOptions scope r.env param.name n.marker) := by
  unfold paramOptions
  split
  · next x callee args keywords hmarker =>
    obtain ⟨note, hnote, he⟩ := mem_noteMarkers hn hmarker
    have hoption : ∀ f, Held (Misused r.env (optionParts (.call x callee args keywords))) f →
        Held (Blames r.env m) f := fun f => Held.mono fun v y => .paramOption hp hnote he
    split
    · exact (failsOnly_named keywords).mono hoption
    · refine ((failsOnly_given keywords (by simp)).mono hoption).bind fun options => ?_
      exact ((failsOnly_named keywords).mono hoption).bind fun named => failsOnly_ok _
    · exact failsOnly_complainAt (.note hp hnote he (by simp))
  · exact failsOnly_ok _

theorem failsOnly_readParam (hp : param ∈ m.positional)
    (hdefault : ∀ e ∈ default, e ∈ m.params.defaults) :
    FailsOnly (Held (Blames r.env m)) (readParam scope r param default) := by
  refine (failsOnly_readNote hp).bind_ok fun n hn =>
    (failsOnly_paramOptions hp hn).bind fun options => ?_
  refine FailsOnly.bind ?_ fun id => FailsOnly.bind ?_ fun initial => FailsOnly.bind ?_ fun type =>
    FailsOnly.bind ?_ fun items => failsOnly_ok _
  · unfold paramId
    split
    · exact failsOnly_ok _
    · exact .ite (failsOnly_complain rfl (.param hp (by simp))) (failsOnly_ok _)
    · exact failsOnly_complain rfl (.param hp (by simp))
  · cases default with
    | none => exact failsOnly_ok _
    | some e =>
      refine (failsOnly_resolve fun refusal => .default (hdefault e rfl)).bind fun v => ?_
      split <;> exact failsOnly_ok _
  · unfold paramType
    split
    · exact failsOnly_ok _
    · exact failsOnly_ofExpr? _
  · unfold paramItems
    split
    · exact failsOnly_ok _
    · exact failsOnly_ok _
    · split
      · exact failsOnly_ok _
      · exact failsOnly_complain rfl (.param hp (by simp))
    · exact failsOnly_complain rfl (.param hp (by simp))

theorem failsOnly_readParams {params : List (Script.Param × Option Expr)}
    (h : ∀ p ∈ params, p.1 ∈ m.positional ∧ ∀ e ∈ p.2, e ∈ m.params.defaults) :
    FailsOnly (Held (Blames r.env m)) (readParams scope r params) := by
  induction params with
  | nil => exact failsOnly_ok _
  | cons p rest ih =>
    obtain ⟨hp, hrest⟩ := List.forall_mem_cons.mp h
    exact (failsOnly_readParam hp.1 hp.2).bind fun read => (ih hrest).bind fun others =>
      failsOnly_ok _

theorem mem_callerParams {p : Script.Param × Option Expr}
    (h : p ∈ callerParams m.params m.decorators) :
    p.1 ∈ m.positional ∧ ∀ e ∈ p.2, e ∈ m.params.defaults := by
  have hp : p ∈ withDefaults m.params := by
    unfold callerParams at h
    split at h
    · exact h
    · exact List.mem_of_mem_drop h
  obtain ⟨hparam, hdefault⟩ := List.of_mem_zip hp
  refine ⟨hparam, fun e he => ?_⟩
  rw [Option.mem_def.mp he] at hdefault
  simpa using hdefault

variable (hplace : scope.place = some (.ofExtent m.extent))
include hplace

theorem failsOnly_readMarked {decorator : Expr} (he : decorator ∈ m.decorators)
    (marker : MethodMarker) :
    FailsOnly (Held (Blames r.env m)) (readMarked scope r m decorator marker) := by
  refine (failsOnly_decoratorSpan _ (.decorator he (by simp))).bind fun span => ?_
  refine (failsOnly_markerArguments marker he).bind fun arguments => .ite ?_ ?_
  · exact failsOnly_complain hplace (.method (by simp))
  · refine (failsOnly_readParams fun p => mem_callerParams).bind fun read => ?_
    refine FailsOnly.bind ?_ fun category => FailsOnly.bind ?_ fun returns => failsOnly_ok _
    · unfold category
      split
      · exact failsOnly_ok _
      · refine .ite ?_ (failsOnly_ok _)
        split
        · exact failsOnly_ok _
        · exact failsOnly_complain hplace (.method (by simp))
    · unfold returnType
      split
      · exact failsOnly_ok _
      · exact .ite ((failsOnly_ofExpr? _).bind fun tag => failsOnly_ok _) (failsOnly_ok _)

/-- **A method only fails with complaints about what it consists of.** -/
theorem failsOnly_readMethod : FailsOnly (Held (Blames r.env m)) (readMethod scope r m) := by
  refine (failsOnly_markedDecorators m.decorators).bind_ok fun marked hmarked => ?_
  have hmem := mem_of_markedDecorators hmarked
  split
  · exact failsOnly_ok _
  · exact (failsOnly_readMarked hplace (hmem _ List.mem_cons_self) _).bind fun read =>
      failsOnly_ok _
  · exact failsOnly_complainAt (.decorator (hmem _ List.mem_cons_self) (by simp))
  · exact failsOnly_complain hplace (.method (by simp))

end Methods

/-! ## Where a walk stops -/

section Walk

variable {scope : Scope} {r : Reading} {moduleName className : String} {p q : Progress}
  {f : Failure}

/-- The reading of the members of a class fails in a method, with those before
it read to their ends. -/
def StopsInMethod (scope : Scope) (r : Reading) (moduleName className : String) (body : List Stmt)
    (p : Progress) (m : Method) (f : Failure) : Prop :=
  ∃ before s after p', body = before ++ s :: after ∧ Method.ofStmt? s = some m ∧
    readMembers scope r moduleName className before p = (p', .ok ()) ∧
    (readMember scope r moduleName className m p').2 = .error f

/-- The reading of statements fails in a class, with those before it read to their ends. -/
def StopsInClass (scope : Scope) (r : Reading) (moduleName : String) (stmts : List Stmt)
    (p : Progress) (className : String) (body : List Stmt) (decorators : List Expr) (p' : Progress)
    (f : Failure) : Prop :=
  ∃ before x bases keywords after, stmts =
    before ++ .classDef x className bases keywords body decorators :: after ∧
    readClasses scope r moduleName before p = (p', .ok ()) ∧
    (readClass scope r moduleName className body decorators p').2 = .error f

theorem next_eq_error {o : Outcome} {step : Progress → Outcome} (h : (o.next step).2 = .error f) :
    o.2 = .error f ∨ ∃ p', o = (p', .ok ()) ∧ (step p').2 = .error f := by
  obtain ⟨p', result⟩ := o
  cases result with
  | error g => exact .inl h
  | ok u => exact .inr ⟨p', rfl, h⟩

theorem exists_stopsInMethod {body : List Stmt}
    (h : (readMembers scope r moduleName className body p).2 = .error f) :
    ∃ m, StopsInMethod scope r moduleName className body p m f := by
  induction body generalizing p with
  | nil => cases h
  | cons s rest ih =>
    rw [readMembers] at h
    split at h
    · next m hm =>
      rcases next_eq_error h with h | ⟨p', hfirst, h⟩
      · exact ⟨m, [], s, rest, p, rfl, hm, rfl, h⟩
      · obtain ⟨m', before, s', after, p'', rfl, hm', hbefore, hstop⟩ := ih h
        refine ⟨m', s :: before, s', after, p'', rfl, hm', ?_, hstop⟩
        rw [readMembers, hm]
        dsimp only
        rw [hfirst]
        exact hbefore
    · next hm =>
      obtain ⟨m', before, s', after, p'', rfl, hm', hbefore, hstop⟩ := ih h
      refine ⟨m', s :: before, s', after, p'', rfl, hm', ?_, hstop⟩
      rw [readMembers, hm]
      exact hbefore

theorem exists_stopsInClass {stmts : List Stmt}
    (h : (readClasses scope r moduleName stmts p).2 = .error f) :
    ∃ className body decorators p',
      StopsInClass scope r moduleName stmts p className body decorators p' f := by
  induction stmts generalizing p with
  | nil => cases h
  | cons s rest ih =>
    cases s with
    | classDef x name bases keywords body decorators =>
      rcases next_eq_error h with h | ⟨p', hfirst, h⟩
      · exact ⟨name, body, decorators, p, [], x, bases, keywords, rest, rfl, rfl, h⟩
      · obtain ⟨name', body', decorators', p'', before, y, bases', keywords', after, rfl, hbefore,
          hstop⟩ := ih h
        refine ⟨name', body', decorators', p'', _ :: before, y, bases', keywords', after, rfl,
          ?_, hstop⟩
        rw [readClasses, hfirst]
        exact hbefore
    -- other statements are passed over
    | _ =>
      obtain ⟨name', body', decorators', p'', before, y, bases', keywords', after, rfl, hbefore,
        hstop⟩ := ih h
      exact ⟨name', body', decorators', p'', _ :: before, y, bases', keywords', after, rfl,
        hbefore, hstop⟩

/-- **The step.** A method that cannot be read or registered is complained about
at one of its places. -/
theorem held_readMember {m : Method}
    (h : (readMember scope r moduleName className m p).2 = .error f) :
    Held (Blames r.env m) f := by
  rw [readMember_eq] at h
  cases hread : readMethod { scope with place := some (.ofExtent m.extent) } r m with
  | error g =>
    rw [hread] at h
    exact Except.error.inj h ▸ failsOnly_readMethod rfl g hread
  | ok result =>
    rw [hread] at h
    rcases readMethod_eq_ok hread with ⟨-, rfl⟩ | ⟨decorator, marker, ⟨record, spans⟩, -,
      hrecord, rfl⟩
    · cases h
    · dsimp only [registerMethod] at h
      rcases Ace.Registry.register_cases p.registry ⟨record, ⟨className, m.name⟩, moduleName⟩ with
        ⟨owner, -, hregister⟩ | ⟨-, hregister⟩
      · simp only [hregister, (readMarked_eq_ok hrecord).1] at h
        exact failsOnly_complain rfl (.duplicate _ _) f h
      · rw [hregister] at h
        cases h

variable {Q : Violation → Extent → Prop}

theorem held_warnDecorators {method : String} {es : List Expr}
    (h : (warnDecorators scope r className method es p).2 = .error f) : Held Q f := by
  fun_induction warnDecorators scope r className method es p with
  | case1 p => cases h
  | case2 e rest p text htext ih => exact ih h
  | case3 e rest p hnone ih => exact ih h
  | case4 e rest p g hg =>
    obtain rfl := Except.error.inj h
    refine (failsOnly_markerOf e).bind (fun marker => ?_) g hg
    split
    · split
      · exact failsOnly_ok _
      · exact failsOnly_error trivial
    · exact failsOnly_ok _

theorem held_warnMembers {stmts : List Stmt}
    (h : (warnMembers scope r className stmts p).2 = .error f) :
    Held Q f := by
  induction stmts generalizing p with
  | nil => cases h
  | cons s rest ih =>
    rw [warnMembers] at h
    split at h
    · rcases next_eq_error h with h | ⟨p', -, h⟩
      · exact held_warnDecorators h
      · exact ih h
    · exact ih h

theorem failsOnly_containerMarkers (es : List Expr) : FailsOnly (Held Q) (containerMarkers r es) :=
  (failsOnly_markedDecorators es).bind fun _ => failsOnly_ok _

theorem failsOnly_decoratorSpans (index : Index) {es : List Expr}
    (h : ∀ e ∈ es, Q .noDecoratorSign e.extent) :
    FailsOnly (Held Q) (decoratorSpans scope index es) := by
  induction es with
  | nil => exact failsOnly_ok _
  | cons e rest ih =>
    obtain ⟨he, hrest⟩ := List.forall_mem_cons.mp h
    exact (failsOnly_decoratorSpan index he).bind fun s => (ih hrest).bind fun others =>
      failsOnly_ok _

/-- A class that is complained about is marked, and the complaint is about one of its
markers or about a method. -/
theorem readClass_eq_complaint {body : List Stmt} {decorators : List Expr} {c : Complaint}
    (h : (readClass scope r moduleName className body decorators p).2 = .error (.complaint c)) :
    ∃ containers, containerMarkers r decorators = .ok containers ∧ containers ≠ [] ∧
      ((∃ e ∈ containers, c.violation = .noDecoratorSign ∧ c.IsAt e.extent) ∨
        ∃ spans m x,
        StopsInMethod scope r moduleName className body { p with spans := p.spans ++ spans } m
          (.complaint c) ∧ Blames r.env m c.violation x ∧ c.IsAt x) := by
  unfold readClass at h
  split at h
  · next g hg =>
    obtain rfl := Except.error.inj h
    obtain ⟨x, hx, -⟩ := failsOnly_containerMarkers (Q := fun _ _ => False) decorators _ hg
    exact hx.elim
  · obtain ⟨x, hx, -⟩ := held_warnMembers (Q := fun _ _ => False) h
    exact hx.elim
  · next containers hne hcontainers =>
    refine ⟨containers, hcontainers, fun hnil => hne hnil, ?_⟩
    split at h
    · next g hg =>
      obtain rfl := Except.error.inj h
      obtain ⟨x, ⟨e, he, hv, rfl⟩, hat⟩ :=
        failsOnly_decoratorSpans (Q := fun v x => ∃ e ∈ containers,
          v = .noDecoratorSign ∧ x = e.extent) r.index (fun e he => ⟨e, he, rfl, rfl⟩) _ hg
      exact .inl ⟨e, he, hv, hat⟩
    · next spans hspans =>
      obtain ⟨m, hstop⟩ := exists_stopsInMethod h
      obtain ⟨before, s, after, p', -, -, -, hmember⟩ := id hstop
      obtain ⟨x, hx⟩ := held_readMember hmember
      exact .inr ⟨spans, m, x, hstop, hx⟩

end Walk

/-! ## Whole scripts -/

/-- **Every complaint names what it is about.** If a script can be parsed and its reading ends with
a complaint, then the complaint has a location, with the line and the byte column from one on of a
place in the marked class that the reading has come to: of a marker of the class, or of the method
that the reading has come to and what `Blames` lists of it. A refusal of the evaluator becomes a
complaint about the refused expression. -/
theorem complaints_name_their_place {registry : Ace.Registry} {source name : String} {m : Module}
    {c : Complaint} (hm : parseModule source = .ok m)
    (h : (extract registry source name).result = .error (.complaint c)) :
    ∃ r className body decorators p containers, reading source.toList m = .ok r ∧
      StopsInClass (scopeOf source.toList) r name m.body (beginning registry) className body
        decorators p (.complaint c) ∧
      containerMarkers r decorators = .ok containers ∧ containers ≠ [] ∧
      ((∃ e ∈ containers, c.violation = .noDecoratorSign ∧ c.IsAt e.extent) ∨
        ∃ spans method x, StopsInMethod (scopeOf source.toList) r name className body
          { p with spans := p.spans ++ spans } method (.complaint c) ∧
          Blames r.env method c.violation x ∧ c.IsAt x) := by
  cases hr : reading source.toList m with
  | error f =>
    -- constants that cannot be computed are a fault and no complaint
    simp only [extract, hm, hr, Attempt.ofParse, bind, Except.bind] at h
    obtain rfl := Except.error.inj h
    rcases bind_eq_error.mp hr with henv | ⟨env, -, hpure⟩
    · cases hfault : Static.environment m <;> rw [hfault] at henv <;> cases henv
    · cases hpure
  | ok r =>
    rw [extract_of_prepared hm hr] at h
    rcases hwalk : readClasses (scopeOf source.toList) r name m.body (beginning registry)
      with ⟨p, outcome⟩
    rw [hwalk] at h
    cases outcome with
    | ok u =>
      rcases bind_eq_error.mp h with hspans | ⟨stripped, -, hpure⟩
      · cases hcut : applyRemovals source.toList p.spans <;> rw [hcut] at hspans <;> cases hspans
      · cases hpure
    | error f =>
      obtain rfl := Except.error.inj h
      obtain ⟨className, body, decorators, p', hstop⟩ :=
        exists_stopsInClass (congrArg Prod.snd hwalk)
      obtain ⟨before, x, bases, keywords, after, -, -, hclass⟩ := id hstop
      obtain ⟨containers, hcontainers, hne, hplace⟩ := readClass_eq_complaint hclass
      exact ⟨r, className, body, decorators, p', containers, rfl, hstop, hcontainers, hne, hplace⟩

/-! ### A default that is not known -/

/-- A method whose parameter has a name as its default that stands for nothing. -/
def unknownDefault : String :=
  "@AceClass\nclass A:\n @Action\n def f(s,a=X):0\n"

def unknownModule : Module :=
  ⟨[classStmt 1 ⟨4, 15⟩ "A"
    [actionStmt 4 14 "f" [⟨⟨⟨4, 9⟩, ⟨4, 10⟩⟩, "a", none⟩] [.name ⟨⟨4, 11⟩, ⟨4, 12⟩⟩ "X"]]]⟩

set_option maxRecDepth 10000 in
theorem parseModule_unknownDefault : parseModule unknownDefault = .ok unknownModule :=
  parseModule_of_tokens (classTokens 1 4 "A" (actionTokens 4 14 "f" [tokenAt 4 8 1 (.op ","),
    tokenAt 4 9 1 (.name "a" true), tokenAt 4 10 1 (.op "="), tokenAt 4 11 1 (.name "X" true)]) ++
    [tokenAt 5 0 0 .finish]) (by decide +kernel) (by rfl)

/-- The complaint about the default. -/
def defaultComplaint : Complaint :=
  ⟨.notStatic "initialValue", some ⟨4, 12, some "X"⟩⟩

set_option maxRecDepth 100000 in
theorem extract_unknownDefault :
    (extract {} unknownDefault).result = .error (.complaint defaultComplaint) := by
  rw [extract_of_prepared parseModule_unknownDefault rfl]
  cbv

/-- The reading comes to the class and no further. -/
theorem complaints_name_their_place_default :
    ∃ r className body decorators p, reading unknownDefault.toList unknownModule = .ok r ∧
      StopsInClass (scopeOf unknownDefault.toList) r defaultModuleName unknownModule.body
      (beginning {}) className body
        decorators p (.complaint defaultComplaint) := by
  obtain ⟨r, className, body, decorators, p, -, hr, hstop, -⟩ :=
    complaints_name_their_place parseModule_unknownDefault extract_unknownDefault
  exact ⟨r, className, body, decorators, p, hr, hstop⟩

end Annotated

end Addon
