import Addon.Proofs.Ace.Enrolment
import Addon.Proofs.Annotated.Extraction
import Addon.Proofs.Annotated.Spans
import Addon.Proofs.Attempt

/-!
# Exports — the methods of a script that end up in the registry

Which methods a script exports can be said without the reading of it: those with one marker,
which is for methods, in the classes with the container marker, as they follow each other in
the source. The reading registers them one at a time, while later methods, parameters or the
final cut can still fail.

## The architecture

* **`MarkerNames.exports`** — the exported methods of a script, by looking at decorators only.
* **`Course`**, **`Takes`** — what a step of the reading comes to, whatever is registered before:
  the registrations that it asks for, the spans that it collects, and whether it comes to its
  end. A registry matters only by the registrations that it refuses. Courses follow each other as
  steps do (`Takes.next`).
* **`Reads`** — a step takes a course that registers given exports in turn. One lemma for each part
  of the reading, from `reads_readMember` to `reads_readClasses`.
* **`Harvest`** — the course of a whole script.
* **`extraction_registers_exports`** — what a reading does to a context, on success and on failure.
-/

namespace Addon.Annotated

open Script Source
open Ace (Registration)

/-! ## What a script exports -/

/-- A method that a script exports, with the class it is in and its marker. -/
structure Export where
  container : String
  method : Method
  decorator : Expr
  marker : MethodMarker

namespace MarkerNames

/-- The markers among decorators, each with its decorator. -/
def marks (names : MarkerNames) (decorators : List Expr) : List (Expr × Marker) :=
  decorators.filterMap fun e =>
    match names.resolve e with
    | .ok (some marker) => some (e, marker)
    | _ => none

/-- The export of a statement in a class, if it is a method with one marker,
which is for methods. -/
def memberExports (names : MarkerNames) (container : String) (s : Stmt) : List Export :=
  match Method.ofStmt? s with
  | none => []
  | some m =>
    match names.marks m.decorators with
    | [(decorator, .method marker)] => [⟨container, m, decorator, marker⟩]
    | _ => []

/-- The exports of a statement of a script, if it is a class with the container marker. -/
def classExports (names : MarkerNames) : Stmt → List Export
  | .classDef _ name _ _ body decorators =>
    if .container ∈ (names.marks decorators).map (·.2) then body.flatMap (names.memberExports name)
    else []
  | _ => []

/-- The exports of a script, in the order of the source. -/
def exports (names : MarkerNames) (stmts : List Stmt) : List Export :=
  stmts.flatMap names.classExports

end MarkerNames

/-- What an export is registered with: the record that is read of it, and the class and the id as
the way to the method. -/
structure Export.Gives (scope : Scope) (r : Reading) (moduleName : String) (x : Export)
    (c : Registration) : Prop where
  read : ∃ spans, readMarked { scope with place := some (.ofExtent x.method.extent) } r x.method
    x.decorator x.marker = .ok (c.record, spans)
  id : c.record.id = x.method.name
  kind : c.record.kind = x.marker.kind
  ref : c.ref = ⟨x.container, c.record.id⟩
  moduleName : c.moduleName = moduleName

/-! ## Markers -/

theorem markerOf_eq_ok {r : Reading} {e : Expr} {marker : Option Marker} :
    r.markerOf e = .ok marker ↔ r.names.resolve e = .ok marker := by
  unfold Reading.markerOf
  cases r.names.resolve e <;> simp [Attempt.ofPrint]

theorem marks_cons {names : MarkerNames} {e : Expr} {marker : Option Marker} (es : List Expr)
    (h : names.resolve e = .ok marker) :
    names.marks (e :: es) = (marker.map fun m => (e, m)).toList ++ names.marks es := by
  cases marker <;> simp [MarkerNames.marks, h]

theorem markedDecorators_eq_ok {r : Reading} {es : List Expr} {marked : List (Expr × Marker)}
    (h : markedDecorators r es = .ok marked) : marked = r.names.marks es := by
  induction es generalizing marked with
  | nil =>
    cases h
    rfl
  | cons e rest ih =>
    simp only [markedDecorators, bind_eq_ok] at h
    obtain ⟨marker, hmarker, others, hothers, hmarked⟩ := h
    rw [marks_cons rest (markerOf_eq_ok.mp hmarker), ← ih hothers]
    cases marker <;> exact (Except.ok.inj hmarked).symm

theorem containerMarkers_eq_ok {r : Reading} {es containers : List Expr}
    (h : containerMarkers r es = .ok containers) :
    containers = ((r.names.marks es).filter fun m => m.2 = .container).map (·.1) := by
  obtain ⟨marked, hmarked, h⟩ := bind_eq_ok.mp h
  obtain rfl := Except.ok.inj h
  rw [markedDecorators_eq_ok hmarked]

/-- A class is marked exactly when it has container markers. -/
theorem containerMarkers_eq_nil_iff {r : Reading} {es containers : List Expr}
    (h : containerMarkers r es = .ok containers) :
    containers = [] ↔ Marker.container ∉ (r.names.marks es).map (·.2) := by
  rw [containerMarkers_eq_ok h, List.map_eq_nil_iff, List.filter_eq_nil_iff]
  simp only [decide_eq_true_eq, List.mem_map, not_exists, not_and]

/-! ## Methods -/

theorem readMarked_eq_ok {scope : Scope} {r : Reading} {m : Method} {decorator : Expr}
    {marker : MethodMarker} {record : Ace.Record} {spans : List Span}
    (h : readMarked scope r m decorator marker = .ok (record, spans)) :
    record.id = m.name ∧ record.kind = marker.kind := by
  simp only [readMarked, bind_eq_ok] at h
  obtain ⟨_, -, _, -, h⟩ := h
  split at h
  · exact absurd h complain_ne_ok
  · simp only [bind_eq_ok] at h
    obtain ⟨_, -, _, -, _, -, h⟩ := h
    obtain ⟨rfl, -⟩ := Prod.mk.inj (Except.ok.inj h)
    exact ⟨rfl, rfl⟩

/-- A method that is read has no marker, or one that is for methods. -/
theorem readMethod_eq_ok {scope : Scope} {r : Reading} {m : Method}
    {result : Option (Ace.Record × List Span)} (h : readMethod scope r m = .ok result) :
    (r.names.marks m.decorators = [] ∧ result = none) ∨
    ∃ decorator marker read, r.names.marks m.decorators = [(decorator, .method marker)] ∧
      readMarked scope r m decorator marker = .ok read ∧ result = some read := by
  obtain ⟨marked, hmarked, h⟩ := bind_eq_ok.mp h
  rw [← markedDecorators_eq_ok hmarked]
  split at h
  · cases h
    exact .inl ⟨rfl, rfl⟩
  · next decorator marker =>
    obtain ⟨read, hread, h⟩ := bind_eq_ok.mp h
    cases h
    exact .inr ⟨decorator, marker, read, rfl, hread, rfl⟩
  · exact absurd h complain_ne_ok
  · exact absurd h complain_ne_ok

/-! ## Courses -/

/-- What a step of the reading comes to, whatever is registered before it. -/
structure Course where
  /-- The registrations that it asks for. -/
  calls : List Registration := []
  /-- The spans that it collects. -/
  spans : List Span := []
  /-- It comes to its end, unless a registration is refused. -/
  complete : Bool := true

/-- A course followed by another, if it comes to its end. -/
def Course.next (c d : Course) : Course :=
  if c.complete then ⟨c.calls ++ d.calls, c.spans ++ d.spans, d.complete⟩ else c

/-- A step takes a course, up to the first registration that is refused. -/
structure Takes (step : Progress → Outcome) (c : Course) : Prop where
  registry : ∀ p, (step p).1.registry = (p.registry.enroll c.calls).1
  ends : ∀ p, (step p).2 = .ok () ↔ (p.registry.enroll c.calls).2 = none ∧ c.complete = true
  spans : ∀ p, (step p).2 = .ok () → (step p).1.spans = p.spans ++ c.spans
  records : ∀ p, (step p).2 = .ok () → (step p).1.records = p.records ++ c.calls.map (·.record)

theorem Outcome.next_of_ok {o : Outcome} (h : o.2 = .ok ()) (step : Progress → Outcome) :
    o.next step = step o.1 := by
  obtain ⟨p, result⟩ := o
  cases h
  rfl

theorem Outcome.next_of_ne_ok {o : Outcome} (h : o.2 ≠ .ok ()) (step : Progress → Outcome) :
    o.next step = o := by
  obtain ⟨p, result⟩ := o
  cases result with
  | ok u => exact absurd rfl h
  | error f => rfl

theorem takes_done : Takes Progress.done {} where
  registry _ := rfl
  ends _ := ⟨fun _ => ⟨rfl, rfl⟩, fun _ => rfl⟩
  spans _ _ := (List.append_nil _).symm
  records _ _ := (List.append_nil _).symm

theorem takes_fail (f : Failure) : Takes (·.fail f) { complete := false } where
  registry _ := rfl
  ends _ := by simp [Progress.fail]
  spans _ h := by cases h
  records _ h := by cases h

section Takes

variable {first second step : Progress → Outcome} {c d : Course}

/-- The two ways a step that takes a course can end. -/
theorem Takes.ends_cases (hc : Takes first c) (p : Progress) (more : List Registration) :
    ((first p).2 = .ok () ∧
      p.registry.enroll (c.calls ++ more) = (first p).1.registry.enroll more) ∨
    ((first p).2 ≠ .ok () ∧
      (c.complete = true → p.registry.enroll (c.calls ++ more) = p.registry.enroll c.calls ∧
        (p.registry.enroll c.calls).2 ≠ none)) := by
  rw [Ace.Registry.enroll_append]
  by_cases h : (first p).2 = .ok ()
  · obtain ⟨hnone, -⟩ := (hc.ends p).mp h
    exact .inl ⟨h, by rw [if_pos hnone, hc.registry]⟩
  · refine .inr ⟨h, fun hcomplete => ?_⟩
    have hsome : (p.registry.enroll c.calls).2 ≠ none := fun hnone =>
      h ((hc.ends p).mpr ⟨hnone, hcomplete⟩)
    exact ⟨if_neg hsome, hsome⟩

/-- **The step.** Courses follow each other as steps do. -/
theorem Takes.next (hc : Takes first c) (hd : Takes second d) :
    Takes (fun p => (first p).next second) (c.next d) := by
  unfold Course.next
  by_cases hcomplete : c.complete = true
  · rw [if_pos hcomplete]
    constructor <;> intro p <;>
      rcases hc.ends_cases p d.calls with ⟨hok, henroll⟩ | ⟨hne, hrefused⟩
    · rw [Outcome.next_of_ok hok, henroll, hd.registry]
    · rw [Outcome.next_of_ne_ok hne, (hrefused hcomplete).1, hc.registry]
    · rw [Outcome.next_of_ok hok, henroll, hd.ends]
    · rw [Outcome.next_of_ne_ok hne, (hrefused hcomplete).1]
      simp [hne, (hrefused hcomplete).2]
    · rw [Outcome.next_of_ok hok]
      intro h
      rw [hd.spans _ h, hc.spans p hok, List.append_assoc]
    · rw [Outcome.next_of_ne_ok hne]
      exact fun h => absurd h hne
    · rw [Outcome.next_of_ok hok]
      intro h
      rw [hd.records _ h, hc.records p hok, List.append_assoc, List.map_append]
    · rw [Outcome.next_of_ne_ok hne]
      exact fun h => absurd h hne
  · rw [if_neg hcomplete]
    have hstop : (fun p => (first p).next second) = first := by
      funext p
      exact Outcome.next_of_ne_ok (fun h => hcomplete ((hc.ends p).mp h).2) second
    rwa [hstop]

/-- A step that starts with spans at hand, and perhaps with more warnings. -/
theorem Takes.shift (hc : Takes step c) (f : Progress → Progress) (spans : List Span)
    (hregistry : ∀ p, (f p).registry = p.registry) (hspans : ∀ p, (f p).spans = p.spans ++ spans)
    (hrecords : ∀ p, (f p).records = p.records) :
    Takes (fun p => step (f p)) { c with spans := spans ++ c.spans } where
  registry p := by rw [hc.registry, hregistry]
  ends p := by rw [hc.ends, hregistry]
  spans p h := by rw [hc.spans _ h, hspans, List.append_assoc]
  records p h := by rw [hc.records _ h, hrecords]

end Takes

/-! ## Courses that register exports -/

section Reads

variable (gives : Export → Registration → Prop)

/-- A course registers exports in turn, and all of them if it comes to its end. -/
def Course.Covers (c : Course) (xs : List Export) : Prop :=
  ∃ read, read <+: xs ∧ List.Forall₂ gives read c.calls ∧ (c.complete = true → read = xs)

/-- A step takes a course that registers exports. -/
def Reads (step : Progress → Outcome) (xs : List Export) : Prop :=
  ∃ c, Takes step c ∧ c.Covers gives xs

variable {gives} {first second step : Progress → Outcome} {xs ys : List Export}

theorem Course.Covers.next {c d : Course} (hc : c.Covers gives xs) (hd : d.Covers gives ys) :
    (c.next d).Covers gives (xs ++ ys) := by
  obtain ⟨read, hprefix, hgives, hall⟩ := hc
  unfold Course.next
  split
  · next hcomplete =>
    obtain rfl := hall hcomplete
    obtain ⟨more, hprefix', hgives', hall'⟩ := hd
    refine ⟨read ++ more, (List.prefix_append_right_inj read).mpr hprefix', ?_, fun h => ?_⟩
    · exact List.rel_append hgives hgives'
    · rw [hall' h]
  · next hcomplete =>
    exact ⟨read, hprefix.trans (List.prefix_append xs ys), hgives, fun h => absurd h hcomplete⟩

theorem reads_done : Reads gives Progress.done [] :=
  ⟨{}, takes_done, [], List.prefix_rfl, .nil, fun _ => rfl⟩

theorem reads_fail (f : Failure) (xs : List Export) : Reads gives (·.fail f) xs :=
  ⟨_, takes_fail f, [], List.nil_prefix, .nil, fun h => by cases h⟩

theorem Reads.next (hfirst : Reads gives first xs) (hsecond : Reads gives second ys) :
    Reads gives (fun p => (first p).next second) (xs ++ ys) := by
  obtain ⟨c, hc, hxs⟩ := hfirst
  obtain ⟨d, hd, hys⟩ := hsecond
  exact ⟨c.next d, hc.next hd, hxs.next hys⟩

theorem Reads.shift (h : Reads gives step xs) (f : Progress → Progress) (spans : List Span)
    (hregistry : ∀ p, (f p).registry = p.registry) (hspans : ∀ p, (f p).spans = p.spans ++ spans)
    (hrecords : ∀ p, (f p).records = p.records) : Reads gives (fun p => step (f p)) xs := by
  obtain ⟨c, hc, hxs⟩ := h
  exact ⟨_, hc.shift f spans hregistry hspans hrecords, hxs⟩

end Reads

/-! ## The parts of the reading -/

section Parts

variable (scope : Scope) (r : Reading) (moduleName className : String)

/-- Warnings register nothing. -/
theorem reads_warnDecorators (method : String) (gives : Export → Registration → Prop)
    (es : List Expr) :
    Reads gives (warnDecorators scope r className method es) [] := by
  induction es with
  | nil => exact reads_done
  | cons e rest ih =>
    cases hwarning : unclaimedWarning scope r className method e with
    | error f =>
      have hstep : warnDecorators scope r className method (e :: rest) = (·.fail f) := by
        funext p
        rw [warnDecorators, hwarning]
      rw [hstep]
      exact reads_fail f []
    | ok warning =>
      have hstep : warnDecorators scope r className method (e :: rest) = fun p =>
          warnDecorators scope r className method rest
            { p with warnings := p.warnings ++ warning.toList } := by
        funext p
        rw [warnDecorators, hwarning]
        cases warning with
        | none => simp
        | some text => rfl
      rw [hstep]
      exact ih.shift _ [] (fun _ => rfl) (fun p => (List.append_nil p.spans).symm) fun _ => rfl

theorem reads_warnMembers (gives : Export → Registration → Prop) (body : List Stmt) :
    Reads gives (warnMembers scope r className body) [] := by
  induction body with
  | nil => exact reads_done
  | cons s rest ih =>
    cases hm : Method.ofStmt? s with
    | none =>
      have hstep : warnMembers scope r className (s :: rest) =
          warnMembers scope r className rest := by
        funext p
        rw [warnMembers, hm]
      rw [hstep]
      exact ih
    | some m =>
      have hstep : warnMembers scope r className (s :: rest) = fun p =>
          (warnDecorators scope r className m.name m.decorators p).next
            (warnMembers scope r className rest) := by
        funext p
        rw [warnMembers, hm]
      rw [hstep]
      exact (reads_warnDecorators scope r className m.name gives m.decorators).next ih

/-- The registration of a method is the whole course of it. -/
theorem takes_registerMethod (m : Method) (record : Ace.Record) (spans : List Span) :
    Takes (registerMethod scope moduleName className m record spans)
      { calls := [⟨record, ⟨className, m.name⟩, moduleName⟩], spans := spans } := by
  constructor <;> intro p <;> 
    cases h : Ace.Registry.register record ⟨className, m.name⟩ moduleName p.registry <;>
    simp [registerMethod, Ace.Registry.enroll, h, Progress.done, complain_ne_ok]

theorem readMember_eq (m : Method) : readMember scope r moduleName className m = fun p =>
    match readMethod { scope with place := some (.ofExtent m.extent) } r m with
    | .ok none => p.done
    | .ok (some (record, spans)) =>
      registerMethod { scope with place := some (.ofExtent m.extent) } moduleName className m
        record spans p
    | .error f => p.fail f := rfl

/-- **The step.** A method is registered if it is exported, and passed over if it has no marker. -/
theorem reads_readMember {s : Stmt} {m : Method} (hs : Method.ofStmt? s = some m) :
    Reads (Export.Gives scope r moduleName) (readMember scope r moduleName className m)
      (r.names.memberExports className s) := by
  rw [readMember_eq]
  cases hread : readMethod { scope with place := some (.ofExtent m.extent) } r m with
  | error f => exact reads_fail f _
  | ok result =>
    rcases readMethod_eq_ok hread with ⟨hmarks, rfl⟩ | ⟨decorator, marker, ⟨record, spans⟩, hmarks,
      hrecord, rfl⟩
    · have hnone : r.names.memberExports className s = [] := by
        simp only [MarkerNames.memberExports, hs, hmarks]
      rw [hnone]
      exact reads_done
    · have hone : r.names.memberExports className s = [⟨className, m, decorator, marker⟩] := by
        simp only [MarkerNames.memberExports, hs, hmarks]
      rw [hone]
      obtain ⟨hid, hkind⟩ := readMarked_eq_ok hrecord
      refine ⟨_, takes_registerMethod _ moduleName className m record spans, _, List.prefix_rfl, ?_,
        fun _ => rfl⟩
      refine .cons ⟨⟨spans, hrecord⟩, hid, hkind, ?_, rfl⟩ .nil
      rw [hid]

/-- **The run** over the methods of a class. -/
theorem reads_readMembers (body : List Stmt) :
    Reads (Export.Gives scope r moduleName) (readMembers scope r moduleName className body)
      (body.flatMap (r.names.memberExports className)) := by
  induction body with
  | nil => exact reads_done
  | cons s rest ih =>
    rw [List.flatMap_cons]
    cases hm : Method.ofStmt? s with
    | none =>
      have hstep : readMembers scope r moduleName className (s :: rest) =
          readMembers scope r moduleName className rest := by
        funext p
        rw [readMembers, hm]
      have hnone : r.names.memberExports className s = [] := by
        simp only [MarkerNames.memberExports, hm]
      rw [hstep, hnone]
      exact ih
    | some m =>
      have hstep : readMembers scope r moduleName className (s :: rest) = fun p =>
          (readMember scope r moduleName className m p).next
            (readMembers scope r moduleName className rest) := by
        funext p
        rw [readMembers, hm]
      rw [hstep]
      exact (reads_readMember scope r moduleName className hm).next ih

/-- A class exports methods if it is marked. If not, its markers are only warned about. -/
theorem reads_readClass (x : Extent) (bases : List Expr) (keywords : List Keyword)
    (body : List Stmt) (decorators : List Expr) :
    Reads (Export.Gives scope r moduleName) (readClass scope r moduleName className body decorators)
      (r.names.classExports (.classDef x className bases keywords body decorators)) := by
  unfold readClass
  cases hcontainers : containerMarkers r decorators with
  | error f => exact reads_fail f _
  | ok containers =>
    have hmarked := containerMarkers_eq_nil_iff hcontainers
    cases containers with
    | nil =>
      rw [MarkerNames.classExports, if_neg (hmarked.mp rfl)]
      exact reads_warnMembers scope r className _ body
    | cons e rest =>
      have hmem : Marker.container ∈ (r.names.marks decorators).map (·.2) := by
        by_contra hnot
        cases hmarked.mpr hnot
      rw [MarkerNames.classExports, if_pos hmem]
      dsimp only
      cases decoratorSpans scope r.index (e :: rest) with
      | error f => exact reads_fail f _
      | ok spans =>
        exact (reads_readMembers scope r moduleName className body).shift _ spans (fun _ => rfl)
          (fun _ => rfl) fun _ => rfl

/-- **The run** over the statements of a script. -/
theorem reads_readClasses (stmts : List Stmt) :
    Reads (Export.Gives scope r moduleName) (readClasses scope r moduleName stmts)
      (r.names.exports stmts) := by
  induction stmts with
  | nil => exact reads_done
  | cons s rest ih =>
    rw [MarkerNames.exports, List.flatMap_cons]
    -- only classes take part, all other statements are passed over
    cases s
    case classDef x name bases keywords body decorators =>
      exact (reads_readClass scope r moduleName name x bases keywords body decorators).next ih
    all_goals exact ih

end Parts

/-! ## Whole scripts -/

/-- The exports of a script. One that cannot be parsed has none. -/
def exportsIn (source : String) : List Export :=
  match parseModule source with
  | .ok m => (MarkerNames.ofModule m).exports m.body
  | .error _ => []

/-- What an export of a script is registered with. -/
def Export.GivesIn (source moduleName : String) (x : Export) (c : Registration) : Prop :=
  ∃ m r, parseModule source = .ok m ∧ reading source.toList m = .ok r ∧
    x.Gives (scopeOf source.toList) r moduleName c

/-- What a whole script comes to, whatever is registered before it. -/
structure Harvest where
  /-- The registrations that it asks for. -/
  calls : List Registration
  /-- The script as it is left, unless a registration is refused. -/
  module? : Option Extracted

/-- The reading of a script comes to this. -/
structure Harvests (source moduleName : String) (h : Harvest) : Prop where
  registry : ∀ registry, (extract registry source moduleName).registry = (registry.enroll h.calls).1
  ends : ∀ registry e, (extract registry source moduleName).result = .ok e ↔
    (registry.enroll h.calls).2 = none ∧ h.module? = some e
  records : ∀ e, h.module? = some e → e.records = h.calls.map (·.record)
  covers : ∃ read, read <+: exportsIn source ∧
    List.Forall₂ (Export.GivesIn source moduleName) read h.calls ∧
    ∀ e, h.module? = some e → read = exportsIn source

theorem finish_records {source : List Char} {name : String} {p : Progress} {e : Extracted}
    (h : finish source name p = .ok e) : e.records = p.records := by
  obtain ⟨stripped, -, h⟩ := bind_eq_ok.mp h
  cases h
  rfl

/-- What a course has gathered when it comes to its end. -/
def Course.gathered (c : Course) : Progress where
  spans := c.spans
  records := c.calls.map (·.record)

/-- The script as it is left by a course that comes to its end. -/
def Course.module? (source : List Char) (name : String) (c : Course) : Option Extracted :=
  if c.complete then (finish source name c.gathered).toOption else none

theorem Course.module?_eq_some {source : List Char} {name : String} {c : Course} {e : Extracted} :
    c.module? source name = some e ↔ c.complete = true ∧ finish source name c.gathered = .ok e := by
  unfold Course.module?
  cases c.complete <;> cases finish source name c.gathered <;> simp [Except.toOption]

/-- The end of a script looks at nothing but the spans and the records. -/
theorem Takes.finish_eq {step : Progress → Outcome} {c : Course} (hc : Takes step c)
    {registry : Ace.Registry} (h : (step (beginning registry)).2 = .ok ()) (source : List Char)
    (name : String) : finish source name (step (beginning registry)).1 =
      finish source name c.gathered := by
  unfold finish
  rw [hc.spans _ h, hc.records _ h]
  rfl

theorem harvests_of_prepared {source : String} {m : Module} {r : Reading}
    (hm : parseModule source = .ok m) (hr : reading source.toList m = .ok r) (moduleName : String) :
    ∃ h, Harvests source moduleName h := by
  obtain ⟨c, htakes, read, hprefix, hgives, hall⟩ :=
    reads_readClasses (scopeOf source.toList) r moduleName m.body
  have hexports : exportsIn source = r.names.exports m.body := by
    rw [exportsIn, hm, (reading_eq_ok hr).2.1]
  refine ⟨⟨c.calls, c.module? source.toList moduleName⟩, ?_, ?_, ?_, ?_⟩
  · intro registry
    rw [extract_of_prepared hm hr]
    exact htakes.registry _
  · intro registry e
    rw [extract_of_prepared hm hr, Course.module?_eq_some]
    dsimp only
    have hends := htakes.ends (beginning registry)
    -- the walk comes to its end exactly if it is complete and its calls are accepted
    cases hwalk :
      (readClasses (scopeOf source.toList) r moduleName m.body (beginning registry)).2 with
    | ok u =>
      obtain ⟨hnone, hcomplete⟩ := hends.mp hwalk
      rw [htakes.finish_eq hwalk]
      exact ⟨fun h => ⟨hnone, hcomplete, h⟩, fun h => h.2.2⟩
    | error f =>
      rw [hwalk] at hends
      constructor
      · intro h
        cases h
      · rintro ⟨hnone, hcomplete, -⟩
        cases hends.mpr ⟨hnone, hcomplete⟩
  · intro e he
    exact finish_records (Course.module?_eq_some.mp he).2
  · rw [hexports]
    refine ⟨read, hprefix, hgives.imp fun x call h => ⟨m, r, hm, hr, h⟩, fun e he => ?_⟩
    exact hall (Course.module?_eq_some.mp he).1

theorem harvests_of_unprepared {source : String}
    (h : ∀ m r, parseModule source = .ok m → reading source.toList m ≠ .ok r)
    (moduleName : String) :
    Harvests source moduleName ⟨[], none⟩ where
  registry registry := by
    obtain ⟨f, hf⟩ := extract_of_unprepared h registry moduleName
    rw [hf]
    rfl
  ends registry e := by
    obtain ⟨f, hf⟩ := extract_of_unprepared h registry moduleName
    simp [hf]
  records e he := by cases he
  covers := ⟨[], List.nil_prefix, List.Forall₂.nil, fun e he => by cases he⟩

/-- **Every script has a harvest**, which no registry changes. -/
theorem exists_harvest (source moduleName : String) : ∃ h, Harvests source moduleName h := by
  by_cases hprepared : ∃ m r, parseModule source = .ok m ∧ reading source.toList m = .ok r
  · obtain ⟨m, r, hm, hr⟩ := hprepared
    exact harvests_of_prepared hm hr moduleName
  · exact ⟨_, harvests_of_unprepared (fun m r hm hr => hprepared ⟨m, r, hm, hr⟩) moduleName⟩

/-- **A reading changes a context by its records.** If a script is read to its end, its exports were
registered one by one, in the order of the source, each under its class and its id; their records
are those of the script, which is now the last module of the context. If the reading fails, the
modules are as they were and a prefix of the exports was registered. -/
theorem extraction_registers_exports (c : Context) (source moduleName : String) :
    match c.extract source moduleName with
    | (next, x) =>
      match x.result with
      | .ok e => next.modules = c.modules ++ [e] ∧
        ∃ calls, List.Forall₂ (Export.GivesIn source moduleName) (exportsIn source) calls ∧
          e.records = calls.map (·.record) ∧ c.registry.enroll calls = (next.registry, none)
      | .error _ => next.modules = c.modules ∧
        ∃ read calls, read <+: exportsIn source ∧
          List.Forall₂ (Export.GivesIn source moduleName) read calls ∧
          c.registry.enroll calls = (next.registry, none) := by
  obtain ⟨h, hregistry, hends, hrecords, read, hprefix, hgives, hall⟩ :=
    exists_harvest source moduleName
  unfold Context.extract Context.after
  dsimp only
  cases hresult : (extract c.registry source moduleName).result with
  | ok e =>
    obtain ⟨hnone, hmodule⟩ := (hends c.registry e).mp hresult
    refine ⟨rfl, h.calls, hall e hmodule ▸ hgives, hrecords e hmodule, ?_⟩
    rw [hregistry, ← hnone]
  | error f =>
    -- the walk stopped at a refused registration, or all that it asked for was registered
    obtain ⟨done, hdone, henroll⟩ := c.registry.exists_enrolled_prefix h.calls
    have hdone' : List.Forall₂ (Export.GivesIn source moduleName) (read.take done.length) done := by
      have := List.forall₂_take done.length hgives
      rwa [← List.prefix_iff_eq_take.mp hdone] at this
    refine ⟨rfl, read.take done.length, done, (List.take_prefix _ _).trans hprefix, hdone', ?_⟩
    rw [henroll, hregistry]

end Addon.Annotated
