import Addon.Proofs.Annotated.Places

/-!
# Signature — the parameters of a record follow the signature of its method

The parameters of a method are its positional ones, in two lists, and its defaults are a third list
that belongs to the last of them. The receiver is left out, and with it its default. So the default
of a parameter is found by counting from the end, whatever lists the parameters come from.

## The architecture

* **`fits_of_stmtsRead`** — a signature that was parsed has no more defaults
  than positional parameters.
* **`getElem?_withDefaults`** — which default a parameter gets.
* **`Follows`** — what the signature of a method says about its record (`follows_readMarked`).
-/

namespace Addon.Annotated

open Script Source
open Ace (Parameter Record Registration)

/-! ## Defaults -/

/-- The default that a call gives to a positional parameter: the one that is
as far from the last. -/
def Method.default? (m : Method) (i : Nat) : Option Expr :=
  m.params.defaults.reverse[m.positional.length - 1 - i]?

/-- How many parameters in front are left out. -/
def Method.receivers (m : Method) : Nat :=
  if m.decorators.any isStaticMark then 0 else 1

theorem length_withDefaults (m : Method) :
    (withDefaults m.params).length = m.positional.length := by
  simp only [withDefaults, Method.positional, List.length_zip, List.length_append,
    List.length_replicate, List.length_map]
  omega

/-- The method has no more defaults than positional parameters. -/
def Method.Fits (m : Method) : Prop :=
  m.params.defaults.length ≤ m.positional.length

theorem getElem?_withDefaults {m : Method} (h : m.Fits) {i : Nat}
    {param : Script.Param} (hparam : m.positional[i]? = some param) :
    (withDefaults m.params)[i]? = some (param, m.default? i) := by
  obtain ⟨hi, -⟩ := List.getElem?_eq_some_iff.mp hparam
  unfold Method.Fits at h
  refine List.getElem?_zip_eq_some.mpr ⟨hparam, ?_⟩
  change (List.replicate (m.positional.length - m.params.defaults.length) none ++
    m.params.defaults.map some)[i]? = _
  rw [List.getElem?_append, List.length_replicate, Method.default?]
  split
  · -- in front of the defaults
    rw [List.getElem?_replicate, if_pos (by assumption), List.getElem?_eq_none (by simp; omega)]
  · -- the place counted from the end is the place among the defaults
    have hplace : m.params.defaults.length - 1 - (m.positional.length - 1 - i) =
        i - (m.positional.length - m.params.defaults.length) := by omega
    rw [List.getElem?_map, List.getElem?_reverse (by omega), hplace,
      List.getElem?_eq_getElem (by omega)]
    rfl

theorem callerParams_eq_drop (m : Method) :
    callerParams m.params m.decorators = (withDefaults m.params).drop m.receivers := by
  unfold callerParams Method.receivers
  split <;> rfl

theorem ofStmt?_of_mem_memberExports {names : MarkerNames} {container : String} {s : Stmt}
    {x : Export} (h : x ∈ names.memberExports container s) : Method.ofStmt? s = some x.method := by
  unfold MarkerNames.memberExports at h
  split at h
  · cases h
  · next m hm =>
    split at h
    · rw [List.mem_singleton.mp h, hm]
    · cases h

/-- The signatures of statements that were parsed fit, in classes and as members of one. -/
theorem fits_of_stmtsRead {c d : Cursor} {stmts : List Stmt} (names : MarkerNames)
    (h : StmtsRead c stmts d) : (∀ s ∈ stmts, ∀ m, Method.ofStmt? s = some m → m.Fits) ∧
      ∀ s ∈ stmts, ∀ x ∈ names.classExports s, x.method.Fits := by
  induction h with
  | nil c => simp
  | skip _ _ ih => exact ih
  | @plain c e s rest hs _ ih =>
    rw [List.forall_mem_cons, List.forall_mem_cons]
    have hmember : Method.ofStmt? s = none := ofStmt?_of_isPlain hs
    have hclass : names.classExports s = [] := by
      cases s <;> first | rfl | cases hs
    exact ⟨⟨by simp [hmember], ih.1⟩, by simp [hclass], ih.2⟩
  | functionDef _ _ hps _ _ ih =>
    rw [List.forall_mem_cons, List.forall_mem_cons]
    refine ⟨⟨fun m hm => ?_, ih.1⟩, by simp [MarkerNames.classExports], ih.2⟩
    obtain rfl := Option.some.inj hm
    exact hps.2
  | classDef _ _ _ _ _ _ ihbody ih =>
    -- its exports are among the members of its body
    rw [List.forall_mem_cons, List.forall_mem_cons]
    refine ⟨⟨by simp [Method.ofStmt?], ih.1⟩, fun x hx => ?_, ih.2⟩
    rw [MarkerNames.classExports] at hx
    split at hx
    · obtain ⟨s, hs, hx⟩ := List.mem_flatMap.mp hx
      exact ihbody.1 s hs _ (ofStmt?_of_mem_memberExports hx)
    · cases hx

theorem fits_of_mem_exportsIn {source : String} {x : Export} (h : x ∈ exportsIn source) :
    x.method.Fits := by
  unfold exportsIn at h
  split at h
  · next m hm =>
    obtain ⟨s, hs, hx⟩ := List.mem_flatMap.mp h
    obtain ⟨c, d, -, -, hread⟩ := stmtsRead_parseModule hm
    exact (fits_of_stmtsRead _ hread).2 s hs x hx
  · cases h

/-! ## Parameters -/

variable {scope : Scope} {r : Reading} {spans : List Span}

/-- A default counts unless it is nothing. Then the option counts. -/
def initialFrom : Option Value → Option Value → Option Value
  | none, option => option
  | some .null, option => option
  | some v, _ => some v

theorem initialValue_eq_ok {env : Static.Env} {default : Option Expr} {options : Fields Value}
    {initial : Option Value} (h : initialValue scope env default options = .ok initial) :
    ∃ v, default.mapM (Static.resolve scope env "initialValue") = .ok v ∧
      initial = initialFrom v (options.get? "initialValue") := by
  cases default with
  | none => exact ⟨none, rfl, (Except.ok.inj h).symm⟩
  | some e =>
    obtain ⟨v, hv, h⟩ := bind_eq_ok.mp h
    refine ⟨some v, ?_, ?_⟩
    · simp [Option.mapM, hv]
    · cases v <;> exact (Except.ok.inj h).symm

/-- The entry of a parameter with a default: its id, and its initial value. -/
def IsEntryOf (scope : Scope) (r : Reading) (param : Script.Param) (default : Option Expr)
    (p : Parameter) : Prop :=
  ∃ note options v, readNote scope r param = .ok note ∧
    paramOptions scope r.env param.name note.marker = .ok options ∧
      paramId scope param options = .ok p.id ∧
    default.mapM (Static.resolve scope r.env "initialValue") = .ok v ∧
    p.initialValue = initialFrom v (options.get? "initialValue")

theorem isEntryOf_readParam {param : Script.Param} {default : Option Expr} {p : Parameter}
    (h : readParam scope r param default = .ok (p, spans)) : IsEntryOf scope r param default p := by
  simp only [readParam, bind_eq_ok] at h
  obtain ⟨note, hnote, options, hoptions, id, hid, initial, hinitial, _, -, _, -, h⟩ := h
  obtain ⟨v, hv, rfl⟩ := initialValue_eq_ok hinitial
  obtain ⟨rfl, -⟩ := Prod.mk.inj (Except.ok.inj h)
  exact ⟨note, options, v, hnote, hoptions, hid, hv, rfl⟩

theorem forall₂_readParams {params : List (Script.Param × Option Expr)} {ps : List Parameter}
    (h : readParams scope r params = .ok (ps, spans)) :
    List.Forall₂ (fun param p => IsEntryOf scope r param.1 param.2 p) params ps := by
  induction params generalizing ps spans with
  | nil =>
    cases h
    exact .nil
  | cons param rest ih =>
    simp only [readParams, bind_eq_ok] at h
    obtain ⟨⟨p, mine⟩, hp, ⟨others, more⟩, hothers, h⟩ := h
    obtain ⟨rfl, -⟩ := Prod.mk.inj (Except.ok.inj h)
    exact .cons (isEntryOf_readParam hp) (ih hothers)

/-! ## Records -/

/-- A title with slots for so many parameters. -/
def slotted (title : String) : Nat → String
  | 0 => title
  | n + 1 =>
    title ++ " (" ++
      ", ".intercalate ((List.range (n + 1)).map fun i => "\x7b" ++ toString i ++ "\x7d") ++ ")"

/-- What the signature of an exported method says about its record. -/
structure Follows (scope : Scope) (r : Reading) (x : Export) (record : Record) : Prop where
  /-- No parameter takes several arguments or only a named one. -/
  closed : x.method.params.variadic = none ∧ x.method.params.keywords = none ∧
    x.method.params.keywordOnly = []
  length : record.params.length = x.method.positional.length - x.method.receivers
  entries : ∀ i param p, x.method.positional[i + x.method.receivers]? = some param →
    record.params[i]? = some p →
    IsEntryOf scope r param (x.method.default? (i + x.method.receivers)) p
  text : ∃ given options, markerArguments scope r.env x.method.name x.marker x.decorator =
    .ok (given, options) ∧
    record.displayText = if given.getD "" =
      "" then slotted (Text.titleCase x.method.name) record.params.length
      else given.getD ""

theorem follows_readMarked {x : Export} {record : Record} (hfits : x.method.Fits)
    (h : readMarked scope r x.method x.decorator x.marker = .ok (record, spans)) :
    Follows scope r x record := by
  simp only [readMarked, bind_eq_ok] at h
  obtain ⟨_, -, ⟨given, options⟩, hgiven, h⟩ := h
  split at h
  · exact absurd h complain_ne_ok
  · next hclosed =>
    simp only [bind_eq_ok] at h
    obtain ⟨⟨params, _⟩, hparams, _, -, _, -, h⟩ := h
    obtain ⟨rfl, -⟩ := Prod.mk.inj (Except.ok.inj h)
    have hall := forall₂_readParams hparams
    rw [callerParams_eq_drop] at hall
    constructor
    · simpa [isPositional, and_assoc] using hclosed
    · rw [← hall.length_eq, List.length_drop, length_withDefaults]
    · intro i param p hparam hp
      have hread : ((withDefaults x.method.params).drop x.method.receivers)[i]? =
          some (param, x.method.default? (i + x.method.receivers)) := by
        rw [List.getElem?_drop, Nat.add_comm, getElem?_withDefaults hfits hparam]
      obtain ⟨hi, hread⟩ := List.getElem?_eq_some_iff.mp hread
      obtain ⟨hi', rfl⟩ := List.getElem?_eq_some_iff.mp hp
      have hentry := hall.get hi hi'
      rwa [List.get_eq_getElem, hread] at hentry
    · refine ⟨given, options, hgiven, ?_⟩
      have hslots (n : Nat) : defaultDisplayText (Text.titleCase x.method.name) n =
          slotted (Text.titleCase x.method.name) n := by
        cases n <;> rfl
      cases given with
      | none => exact hslots _
      | some text => simp only [hslots, Option.getD_some]

/-- What the signature of an export of a script says about its registration. -/
def FollowsIn (source : String) (x : Export) (c : Registration) : Prop :=
  ∃ m r, parseModule source = .ok m ∧ reading source.toList m = .ok r ∧
    Follows { scopeOf source.toList with place := some (.ofExtent x.method.extent) } r x c.record

/-- **The parameters of records follow the signatures.** Whatever a script registers, each record
belongs to an export of the script whose signature has positional parameters only. It has an entry
for each of them but the receiver, in order, with the default that a call gives to this parameter,
or else the option, as its initial value; and where no text is given, its text is the title with a
slot for each entry. A script that is read to its end registers all exports. -/
theorem params_follow_signature (c : Context) (source moduleName : String) :
    ∃ read calls, read <+: exportsIn source ∧ List.Forall₂ (FollowsIn source) read calls ∧
      c.registry.enroll calls = ((c.extract source moduleName).1.registry, none) ∧
      ∀ e, (c.extract source moduleName).2.result = .ok e →
        read = exportsIn source ∧ e.records = calls.map (·.record) := by
  obtain ⟨h, hregistry, hends, hrecords, read, hread, hgives, hall⟩ :=
    exists_harvest source moduleName
  have hfollows : List.Forall₂ (FollowsIn source) read h.calls := by
    refine List.forall₂_iff_get.mpr ⟨hgives.length_eq, fun i hi hi' => ?_⟩
    obtain ⟨m, r, hm, hr, hgive⟩ := hgives.get hi hi'
    obtain ⟨spans, hspans⟩ := hgive.read
    exact ⟨m, r, hm, hr,
      follows_readMarked (fits_of_mem_exportsIn (hread.subset (List.get_mem _ _))) hspans⟩
  unfold Context.extract Context.after
  dsimp only
  cases hresult : (extract c.registry source moduleName).result with
  | ok e =>
    obtain ⟨hnone, hmodule⟩ := (hends c.registry e).mp hresult
    refine ⟨read, h.calls, hread, hfollows, by rw [hregistry, ← hnone], fun e' he => ?_⟩
    obtain rfl := Except.ok.inj he
    exact ⟨hall e hmodule, hrecords e hmodule⟩
  | error f =>
    -- what was registered before the failure is a first part of the calls
    obtain ⟨done, hdone, henroll⟩ := c.registry.exists_enrolled_prefix h.calls
    have htaken := List.forall₂_take done.length hfollows
    rw [← List.prefix_iff_eq_take.mp hdone] at htaken
    refine ⟨_, done, (List.take_prefix _ _).trans hread, htaken, by rw [henroll, hregistry], ?_⟩
    rintro e' ⟨⟩

end Addon.Annotated
