import Addon.Proofs.Annotated.Exports

/-!
# Order — scripts can be read in any order

Scripts are read into one context, which every one of them changes, and an id that one script has
taken is refused to all that come after it. Which script is blamed depends on the order. Whether any
of them is, and what comes of each script otherwise, does not.

## The architecture

* **`Harvested`** — a choice of the harvest of every script.
* **`Harvested.succeeds_iff`** — all of a list of scripts are read to their ends exactly when each
  of them could be, and no registration of theirs is refused.
* **`Harvested.context`** — the context that is reached then.
* **`module_order_irrelevant`** — both say nothing that a permutation of the scripts would change.
-/

namespace Addon.Annotated

open Script Source
open Ace (Registration)

/-- All scripts were read to their ends. -/
def Succeeds (xs : List Extraction) : Prop :=
  ∀ x ∈ xs, ∃ e, x.result = .ok e

theorem Context.extractAll_cons (c : Context) (script : String × String)
    (rest : List (String × String)) :
    c.extractAll (script :: rest) =
      (((c.extract script.1 script.2).1.extractAll rest).1,
        (c.extract script.1 script.2).2 :: ((c.extract script.1 script.2).1.extractAll rest).2) :=
          rfl

/-- The harvest of every script, each a text with a name. -/
def Harvested (harvest : String × String → Harvest) : Prop :=
  ∀ script, Harvests script.1 script.2 (harvest script)

theorem exists_harvested : ∃ harvest, Harvested harvest := by
  choose harvest hharvest using fun script : String × String => exists_harvest script.1 script.2
  exact ⟨harvest, hharvest⟩

/-- The registrations that scripts ask for. -/
def callsOf (harvest : String × String → Harvest) (scripts : List (String × String)) :
    List Registration :=
  scripts.flatMap fun script => (harvest script).calls

theorem callsOf_cons (harvest : String × String → Harvest) (script : String × String)
    (rest : List (String × String)) :
    callsOf harvest (script :: rest) = (harvest script).calls ++ callsOf harvest rest :=
  List.flatMap_cons

section Harvested

variable {harvest : String × String → Harvest} (h : Harvested harvest)
include h

/-- A script that is read to its end leaves its registrations and itself in the context. -/
theorem Harvested.extract_eq {c : Context} {script : String × String} {e : Extracted}
    (he : (c.extract script.1 script.2).2.result = .ok e) :
    (c.extract script.1 script.2).1 =
      ⟨(c.registry.enroll (harvest script).calls).1, c.modules ++ [e]⟩ := by
  change (extract c.registry script.1 script.2).result = .ok e at he
  simp only [Context.extract, Context.after, he, (h script).registry]

/-- **When all scripts are read to their ends**, and what they leave. -/
theorem Harvested.succeeds_iff (c : Context) (scripts : List (String × String)) :
    Succeeds (c.extractAll scripts).2 ↔
      (c.registry.enroll (callsOf harvest scripts)).2 = none ∧
      ∀ script ∈ scripts, ∃ e, (harvest script).module? = some e := by
  induction scripts generalizing c with
  | nil => simp [Context.extractAll, Succeeds, callsOf, Ace.Registry.enroll]
  | cons script rest ih =>
    have hends := (h script).ends c.registry
    rw [Context.extractAll_cons, Succeeds, List.forall_mem_cons, List.forall_mem_cons, callsOf_cons,
      Ace.Registry.enroll_append]
    constructor
    · rintro ⟨⟨e, he⟩, hrest⟩
      obtain ⟨hnone, hmodule⟩ := (hends e).mp he
      obtain ⟨hothers, hmodules⟩ := (ih _).mp hrest
      rw [h.extract_eq he] at hothers
      exact ⟨by rwa [if_pos hnone], ⟨e, hmodule⟩, hmodules⟩
    · rintro ⟨henroll, ⟨e, hmodule⟩, hmodules⟩
      -- a run that stopped in this script would not have got through
      have hnone : (c.registry.enroll (harvest script).calls).2 = none := by
        by_contra hsome
        rw [if_neg hsome] at henroll
        exact hsome henroll
      rw [if_pos hnone] at henroll
      have he := (hends e).mpr ⟨hnone, hmodule⟩
      refine ⟨⟨e, he⟩, (ih _).mpr ⟨?_, hmodules⟩⟩
      rwa [h.extract_eq he]

/-- The context after scripts that are all read to their ends. -/
theorem Harvested.context {c : Context} {scripts : List (String × String)}
    (hscripts : Succeeds (c.extractAll scripts).2) {moduleOf : String × String → Extracted}
    (hmodules : ∀ script ∈ scripts, (harvest script).module? = some (moduleOf script)) :
    (c.extractAll scripts).1 =
      ⟨(c.registry.enroll (callsOf harvest scripts)).1, c.modules ++ scripts.map moduleOf⟩ := by
  induction scripts generalizing c with
  | nil => simp [Context.extractAll, callsOf, Ace.Registry.enroll]
  | cons script rest ih =>
    rw [Context.extractAll_cons, Succeeds, List.forall_mem_cons] at hscripts
    rw [List.forall_mem_cons] at hmodules
    obtain ⟨⟨e, he⟩, hrest⟩ := hscripts
    obtain ⟨hnone, hmodule⟩ := ((h script).ends c.registry e).mp he
    obtain rfl : moduleOf script = e := Option.some.inj (hmodules.1.symm.trans hmodule)
    rw [Context.extractAll_cons, ih hrest hmodules.2, h.extract_eq he, callsOf_cons,
      Ace.Registry.enroll_append, if_pos hnone, List.map_cons, List.append_assoc,
      List.singleton_append]

end Harvested

/-! ## Permutations -/

theorem callsOf_perm (harvest : String × String → Harvest)
    {scripts scripts' : List (String × String)}
    (hperm : scripts.Perm scripts') : (callsOf harvest scripts).Perm (callsOf harvest scripts') :=
  hperm.flatMap_right _

/-- In a fresh context, registrations get through in one order exactly when they do in another. -/
theorem enroll_empty_perm {calls calls' : List Registration} (hperm : calls.Perm calls') :
    (Ace.Registry.empty.enroll calls).2 = none ↔ (Ace.Registry.empty.enroll calls').2 = none := by
  rw [Ace.Registry.tracks_empty.enroll_eq_none_iff, Ace.Registry.tracks_empty.enroll_eq_none_iff]
  exact (hperm.map _).nodup_iff

/-- **The order of scripts does not matter.** Scripts that are read in turn into a fresh context are
all read to their ends in one order exactly when they are in any other. If so, each of them comes
out the same, the records of a category and kind are the same up to their order, and the same ids
lead to the same methods. -/
theorem module_order_irrelevant (scripts scripts' : List (String × String))
    (hperm : scripts.Perm scripts') :
    (Succeeds (Context.extractAll {} scripts).2 ↔ Succeeds (Context.extractAll {} scripts').2) ∧
    (Succeeds (Context.extractAll {} scripts).2 →
      (∃ moduleOf : String × String → Extracted,
        (Context.extractAll {} scripts).1.modules = scripts.map moduleOf ∧
        (Context.extractAll {} scripts').1.modules = scripts'.map moduleOf) ∧
      (∀ category kind,
        (((Context.extractAll {} scripts).1.registry.bucket category).get kind).Perm
          (((Context.extractAll {} scripts').1.registry.bucket category).get kind)) ∧
      ∀ kind id, ((Context.extractAll {} scripts).1.registry.dispatch.get kind).get? id =
        ((Context.extractAll {} scripts').1.registry.dispatch.get kind).get? id) := by
  obtain ⟨harvest, h⟩ := exists_harvested
  have hcalls := callsOf_perm harvest hperm
  have hiff : Succeeds (Context.extractAll {} scripts).2 ↔
      Succeeds (Context.extractAll {} scripts').2 := by
    rw [h.succeeds_iff, h.succeeds_iff]
    refine and_congr (enroll_empty_perm hcalls) ?_
    simp only [hperm.mem_iff]
  refine ⟨hiff, fun hscripts => ?_⟩
  obtain ⟨hnone, hmodules⟩ := (h.succeeds_iff {} scripts).mp hscripts
  have hnone' := (enroll_empty_perm hcalls).mp hnone
  -- what a script gives depends on it alone, so it is the same in both orders
  have : Nonempty Extracted := ⟨⟨"", [], [], [], []⟩⟩
  choose! moduleOf hmoduleOf using hmodules
  have hfirst := h.context hscripts hmoduleOf
  have hsecond :=
    h.context (hiff.mp hscripts) fun script hs => hmoduleOf script (hperm.mem_iff.mpr hs)
  have htracks := Ace.Registry.tracks_empty.enroll hnone
  have htracks' := Ace.Registry.tracks_empty.enroll hnone'
  rw [hfirst, hsecond]
  exact ⟨⟨moduleOf, rfl, rfl⟩, htracks.bucket_perm htracks' hcalls,
    htracks.dispatch_eq htracks' hcalls⟩

/-! ### Two scripts -/

def firstScript : String × String :=
  ("@AceClass\nclass A:\n @Action\n def f(s):0\n", "a.py")

def secondScript : String × String :=
  ("@AceClass\nclass B:\n @Action\n def g(s):0\n", "b.py")

theorem parseModule_firstScript : parseModule firstScript.1 =
    .ok ⟨[classStmt 1 ⟨4, 11⟩ "A" [actionStmt 4 10 "f" [] []]]⟩ :=
  parseModule_of_tokens (classTokens 1 4 "A" (actionTokens 4 10 "f" []) ++ [tokenAt 5 0 0 .finish])
    (by decide +kernel) (by rfl)

theorem parseModule_secondScript : parseModule secondScript.1 =
    .ok ⟨[classStmt 1 ⟨4, 11⟩ "B" [actionStmt 4 10 "g" [] []]]⟩ :=
  parseModule_of_tokens (classTokens 1 4 "B" (actionTokens 4 10 "g" []) ++ [tokenAt 5 0 0 .finish])
    (by decide +kernel) (by rfl)

/-- Which scripts were read to their ends, and where the ids lead. -/
def outline (read : Context × List Extraction) : List Bool × Ace.ByKind (Fields Ace.MethodRef) :=
  (read.2.map fun x => x.result.toOption.isSome, read.1.registry.dispatch)

set_option maxRecDepth 100000 in
theorem outline_twoScripts :
    outline (Context.extractAll {} [firstScript, secondScript]) =
      ([true, true], ⟨[("f", ⟨"A", "f"⟩), ("g", ⟨"B", "g"⟩)], [], []⟩) := by
  simp only [Context.extractAll, Context.extract, extract_of_prepared parseModule_firstScript rfl,
    extract_of_prepared parseModule_secondScript rfl]
  cbv

/-- Read the other way round, the two scripts come out the same. -/
theorem module_order_irrelevant_twoScripts :
    Succeeds (Context.extractAll {} [firstScript, secondScript]).2 ∧
    Succeeds (Context.extractAll {} [secondScript, firstScript]).2 ∧
    (∃ e e', (Context.extractAll {} [firstScript, secondScript]).1.modules = [e, e'] ∧
      (Context.extractAll {} [secondScript, firstScript]).1.modules = [e', e]) ∧
    ((Context.extractAll {} [secondScript, firstScript]).1.registry.dispatch.get .action).get? "f" =
      some ⟨"A", "f"⟩ := by
  obtain ⟨hresults, hdispatch⟩ := Prod.mk.inj outline_twoScripts
  have hfirst : Succeeds (Context.extractAll {} [firstScript, secondScript]).2 := by
    intro x hx
    have hsome : x.result.toOption.isSome = true := by
      have := List.mem_map_of_mem (f := fun x : Extraction => x.result.toOption.isSome) hx
      rw [hresults] at this
      simpa using this
    cases hresult : x.result with
    | ok e => exact ⟨e, rfl⟩
    | error f =>
      rw [hresult] at hsome
      cases hsome
  obtain ⟨hiff, hsame⟩ := module_order_irrelevant [firstScript, secondScript]
    [secondScript, firstScript] (List.Perm.swap _ _ _)
  obtain ⟨⟨moduleOf, hmodules, hmodules'⟩, -, hids⟩ := hsame hfirst
  refine ⟨hfirst, hiff.mp hfirst, ⟨_, _, hmodules, hmodules'⟩, ?_⟩
  rw [← hids, hdispatch]
  rfl

end Addon.Annotated
