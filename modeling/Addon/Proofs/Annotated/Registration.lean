import Addon.Annotated.Extract
import Addon.Proofs.Ace.Registry

/-!
# Registration — what the reading of scripts does to the registry

The reading of a script changes the registry by registrations only, one for each exported method it
comes to. It may stop anywhere: at a method that cannot be read, at an id that is taken, or at the
end of the script. Wherever it stops, the registry has been reached by a run of registrations, and
so has the registry after any number of scripts.

## The architecture

* **`Reaches`** — a registry comes from another by a run of registrations.
* **`reaches_readMember`** — the step: a method registers at most one record.
* **`reaches_readMembers`**, **`reaches_readClasses`** — by induction along the statements of
  a class and of a script.
* **`extractAll_cons`** — the registry after some scripts does not hang on the modules of a context.
* **`consistent_extractAll`** — the run over scripts, which brings in the invariant of the registry.
-/

namespace Addon.Ace.Registry

/-- A registry comes from another by a run of registrations. -/
def Reaches (r next : Registry) : Prop :=
  ∃ calls, next = r.attemptAll calls

theorem Reaches.refl (r : Registry) : r.Reaches r :=
  ⟨[], rfl⟩

theorem Reaches.trans {r next last : Registry} (h : r.Reaches next) (h' : next.Reaches last) :
    r.Reaches last := by
  obtain ⟨calls, rfl⟩ := h
  obtain ⟨more, rfl⟩ := h'
  exact ⟨calls ++ more, by rw [attemptAll, attemptAll, attemptAll, List.foldl_append]⟩

/-- A registration is a run of one call, whether it succeeds or not. -/
theorem reaches_attempt (r : Registry) (c : Registration) : r.Reaches (r.attempt c) :=
  ⟨[c], rfl⟩

end Addon.Ace.Registry

namespace Addon.Annotated

open Script Source

/-! ## Steps -/

/-- If a step and its successor reach a registry each, so do both together. -/
theorem Outcome.reaches_next {r : Ace.Registry} {o : Outcome} {step : Progress → Outcome}
    (ho : r.Reaches o.1.registry) (hstep : ∀ p : Progress, p.registry.Reaches (step p).1.registry) :
    r.Reaches (o.next step).1.registry := by
  obtain ⟨p, outcome⟩ := o
  cases outcome with
  | ok u => exact ho.trans (hstep p)
  | error f => exact ho

/-- Warnings register nothing. -/
theorem warnDecorators_registry (scope : Scope) (r : Reading) (className method : String)
    (es : List Expr) (p : Progress) :
    (warnDecorators scope r className method es p).1.registry = p.registry := by
  induction es generalizing p with
  | nil => rfl
  | cons e rest ih =>
    rw [warnDecorators]
    split
    · exact ih _
    · exact ih _
    · rfl

theorem warnMembers_registry (scope : Scope) (r : Reading) (className : String) (body : List Stmt)
    (p : Progress) : (warnMembers scope r className body p).1.registry = p.registry := by
  induction body generalizing p with
  | nil => rfl
  | cons s rest ih =>
    rw [warnMembers]
    split
    · next m _ =>
      have hm := warnDecorators_registry scope r className m.name m.decorators p
      rcases hw : warnDecorators scope r className m.name m.decorators p with ⟨q, outcome⟩
      rw [hw] at hm
      cases outcome with
      | ok u => exact (ih q).trans hm
      | error f => exact hm
    · exact ih p

/-- **The step.** A method registers one record or none. -/
theorem reaches_readMember (scope : Scope) (r : Reading) (moduleName className : String)
    (m : Method) (p : Progress) :
    p.registry.Reaches (readMember scope r moduleName className m p).1.registry := by
  unfold readMember
  dsimp only
  split
  · exact .refl _
  · next record spans _ =>
    have h := p.registry.reaches_attempt ⟨record, ⟨className, m.name⟩, moduleName⟩
    unfold registerMethod
    split
    · next registry hregister => rwa [Ace.Registry.attempt, hregister] at h
    · next v registry hregister => rwa [Ace.Registry.attempt, hregister] at h
  · exact .refl _

/-! ## Runs -/

theorem reaches_readMembers (scope : Scope) (r : Reading) (moduleName className : String)
    (body : List Stmt) (p : Progress) :
    p.registry.Reaches (readMembers scope r moduleName className body p).1.registry := by
  induction body generalizing p with
  | nil => exact .refl _
  | cons s rest ih =>
    rw [readMembers]
    split
    · exact Outcome.reaches_next (reaches_readMember scope r moduleName className _ p) ih
    · exact ih p

theorem reaches_readClass (scope : Scope) (r : Reading) (moduleName className : String)
    (body : List Stmt) (decorators : List Expr) (p : Progress) :
    p.registry.Reaches (readClass scope r moduleName className body decorators p).1.registry := by
  unfold readClass
  split
  · exact .refl _
  · rw [warnMembers_registry]
    exact .refl _
  · split
    · exact .refl _
    · next spans _ =>
      exact reaches_readMembers scope r moduleName className body
        { p with spans := p.spans ++ spans }

theorem reaches_readClasses (scope : Scope) (r : Reading) (moduleName : String) (stmts : List Stmt)
    (p : Progress) :
    p.registry.Reaches (readClasses scope r moduleName stmts p).1.registry := by
  induction stmts generalizing p with
  | nil => exact .refl _
  | cons s rest ih =>
    -- only classes take part, all other statements are passed over
    cases s
    case classDef _ name _ _ body decorators =>
      exact Outcome.reaches_next (reaches_readClass scope r moduleName name body decorators p) ih
    all_goals exact ih p

/-! ## Scripts -/

/-- However a reading ends, it has changed the registry by registrations only. -/
theorem reaches_extract (registry : Ace.Registry) (source name : String) :
    registry.Reaches (extract registry source name).registry := by
  unfold extract
  dsimp only
  split
  · exact .refl _
  · next m r _ =>
    exact reaches_readClasses { source := some source.toList } r name m.body
      { registry := registry }

/-- The registry of a context that some scripts, each a text with a name, were read into in turn. A
script that fails leaves behind what it registered before. -/
def extractAll (registry : Ace.Registry) (scripts : List (String × String)) : Ace.Registry :=
  (Context.extractAll { registry := registry } scripts).1.registry

theorem Context.registry_extractAll (c : Context) (scripts : List (String × String)) :
    (c.extractAll scripts).1.registry = Annotated.extractAll c.registry scripts := by
  -- Both runs read a script with the same registry, but their modules differ from there on.
  suffices h : ∀ c d : Context, c.registry = d.registry →
      (c.extractAll scripts).1.registry = (d.extractAll scripts).1.registry from h c _ rfl
  induction scripts with
  | nil => exact fun c d h => h
  | cons script rest ih =>
    intro c d h
    exact ih _ _ (congrArg (fun r => (Annotated.extract r script.1 script.2).registry) h)

theorem extractAll_cons (registry : Ace.Registry) (script : String × String)
    (rest : List (String × String)) : extractAll registry (script :: rest) =
      extractAll (extract registry script.1 script.2).registry rest :=
  Context.registry_extractAll _ rest

theorem reaches_extractAll (registry : Ace.Registry) (scripts : List (String × String)) :
    registry.Reaches (extractAll registry scripts) := by
  induction scripts generalizing registry with
  | nil => exact .refl _
  | cons script rest ih =>
    rw [extractAll_cons]
    exact (reaches_extract registry script.1 script.2).trans (ih _)

/-- The tables of a registry that scripts were read into are in step with each other. -/
theorem consistent_extractAll (scripts : List (String × String)) :
    ∃ done, (extractAll .empty scripts).Consistent done := by
  obtain ⟨calls, hcalls⟩ := reaches_extractAll .empty scripts
  rw [hcalls]
  exact ⟨_, (Ace.Registry.tracks_attemptAll Ace.Registry.tracks_empty calls).consistent⟩

end Addon.Annotated
