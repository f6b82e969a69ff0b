import Addon.Proofs.Build.Preparation
import Addon.Proofs.File.Agreement

/-!
# Two runs — preparation sees only what it reads

Two builds with the same settings run on different files. As long as all that they read is the same,
they go through the same steps: each step gives the same result or the same failure in both. What
earlier builds remembered does not matter, since a build forgets it first.

## The architecture

* **`Twin`**, **`Twins`** — equal outcomes of two runs, and programs that have them; kept by chains.
* **`Step.Steady`** — a step that ends alike in two sessions with fixed files.
* **`ReadsOutside`** — no path that a build reads comes into some zones.
* **`prepare_twin`** — preparation ends alike in two trees that agree outside the zones.
-/

namespace Addon.Build

open File Descriptor

/-- Equal outcomes of two runs: the same failure, or the same result in states that are related. -/
inductive Twin {ε σ α : Type} (R : σ → σ → Prop) :
    EStateM.Result ε σ α → EStateM.Result ε σ α → Prop
  | ok (a : α) {s₁ s₂ : σ} (h : R s₁ s₂) : Twin R (.ok a s₁) (.ok a s₂)
  | error (e : ε) (s₁ s₂ : σ) : Twin R (.error e s₁) (.error e s₂)

/-- A program that ends alike in states that are related. -/
def Twins {ε σ α : Type} (R : σ → σ → Prop) (x : EStateM ε σ α) : Prop :=
  ∀ s₁ s₂, R s₁ s₂ → Twin R (x s₁) (x s₂)

section Twins

variable {ε σ α β : Type} {R : σ → σ → Prop}

theorem twins_pure (a : α) : Twins R (pure a : EStateM ε σ α) := fun _ _ h => .ok a h

theorem twins_throw (e : ε) : Twins R (throw e : EStateM ε σ α) := fun _ _ _ => .error e _ _

/-- Two runs that have ended alike go on alike, from states that these runs have left. -/
theorem Twin.bind {S : σ → σ → Prop} {x : EStateM ε σ α} {f : α → EStateM ε σ β} {s₁ s₂ : σ}
    (hx : Twin R (x s₁) (x s₂))
    (hf : ∀ a u₁ u₂, x s₁ = .ok a u₁ → x s₂ = .ok a u₂ → R u₁ u₂ → Twin S (f a u₁) (f a u₂)) :
    Twin S ((x >>= f) s₁) ((x >>= f) s₂) := by
  rw [run_bind, run_bind]
  cases hx₁ : x s₁ <;> cases hx₂ : x s₂ <;> rw [hx₁, hx₂] at hx <;> cases hx
  · exact hf _ _ _ hx₁ hx₂ ‹_›
  · exact .error _ _ _

theorem Twins.bind {x : EStateM ε σ α} {f : α → EStateM ε σ β} (hx : Twins R x)
    (hf : ∀ a, Twins R (f a)) : Twins R (x >>= f) := fun s₁ s₂ h =>
  (hx s₁ s₂ h).bind fun a _ _ _ _ hu => hf a _ _ hu

end Twins

/-- Two sessions on given files that remember the same tables. -/
structure Parallel (t₁ t₂ : Tree) (s₁ s₂ : Session) : Prop where
  tree₁ : s₁.tree = t₁
  tree₂ : s₂.tree = t₂
  cache : s₁.cache = s₂.cache

namespace Step

/-- A step that ends alike in two sessions. -/
abbrev Steady {α : Type} (t₁ t₂ : Tree) (x : Step α) : Prop :=
  Twins (Parallel t₁ t₂) x

variable {α β : Type} {t₁ t₂ : Tree}

theorem steady_look_bind {f : Tree → Attempt α} {g : α → Step β} (h : f t₁ = f t₂)
    (hg : ∀ a, f t₁ = .ok a → Steady t₁ t₂ (g a)) : Steady t₁ t₂ (look f >>= g) := by
  intro s₁ s₂ hs
  rw [run_bind, run_bind]
  unfold look
  rw [hs.tree₁, hs.tree₂, ← h]
  cases hf : f t₁ with
  | error e => exact .error e _ _
  | ok a => exact hg a hf s₁ s₂ hs

theorem steady_look {f : Tree → Attempt α} (h : f t₁ = f t₂) : Steady t₁ t₂ (look f) := by
  intro s₁ s₂ hs
  unfold look
  rw [hs.tree₁, hs.tree₂, ← h]
  cases f t₁ with
  | error e => exact .error e _ _
  | ok a => exact .ok a hs

theorem steady_ofAttempt (a : Attempt α) : Steady t₁ t₂ (ofAttempt a) :=
  steady_look rfl

theorem steady_enter (stage : Stage) : Steady t₁ t₂ (enter stage) := fun _ _ h =>
  .ok () ⟨h.tree₁, h.tree₂, h.cache⟩

theorem clearCache_twin (s₁ s₂ : Session) :
    Twin (Parallel s₁.tree s₂.tree) (clearCache s₁) (clearCache s₂) :=
  .ok () ⟨rfl, rfl, rfl⟩

theorem steady_warn (texts : List String) : Steady t₁ t₂ (warn texts) := fun _ _ h =>
  .ok () ⟨h.tree₁, h.tree₂, h.cache⟩

theorem steady_compile (compiler : Compiler) (options : CompileOptions) (source : String) :
    Steady t₁ t₂ (compile compiler options source) :=
  Twins.bind (fun _ _ h => .ok () ⟨h.tree₁, h.tree₂, h.cache⟩) fun _ => steady_ofAttempt _

variable {zones : List Place}

theorem steady_isFile (h : Tree.AgreeOutside zones t₁ t₂) {p : Path} (hp : p.Avoids zones) :
    Steady t₁ t₂ (isFile p) :=
  steady_look (congrArg Attempt.ofFile (h.ask hp _))

theorem steady_readText (h : Tree.AgreeOutside zones t₁ t₂) {p : Path} (hp : p.Avoids zones) :
    Steady t₁ t₂ (readText p) :=
  Twins.bind (steady_look (h.readText hp)) fun _ => twins_pure _

theorem read_congr (h : Tree.AgreeOutside zones t₁ t₂) {p : Path} (hp : p.Avoids zones) :
    Lexicon.read t₁ p = Lexicon.read t₂ p := by
  unfold Lexicon.read Tree.isFile
  rw [h.ask hp, h.readText hp]

theorem steady_loadTable (h : Tree.AgreeOutside zones t₁ t₂) {directory : Option Path}
    {tag : String} (hp : ∀ d, directory = some d → (Lexicon.tablePath d tag).Avoids zones) :
    Steady t₁ t₂ (loadTable directory tag) := by
  intro s₁ s₂ hs
  have hload : Lexicon.load s₁.tree directory tag s₁.cache =
      Lexicon.load s₂.tree directory tag s₂.cache := by
    rw [hs.tree₁, hs.tree₂, hs.cache]
    unfold Lexicon.load Lexicon.Cache.load
    cases directory with
    | none => rfl
    | some d =>
      dsimp only
      rw [read_congr h (hp d rfl)]
  unfold loadTable
  rw [hload]
  rcases Lexicon.load s₂.tree directory tag s₂.cache with ⟨e | table, cache⟩
  · exact .error e _ _
  · exact .ok table ⟨hs.tree₁, hs.tree₂, rfl⟩

end Step

open Step

/-! ## Stages -/

/-- No path that a build reads comes into some zones. -/
structure ReadsOutside (settings : Settings) (zones : List Place) (t : Tree) : Prop where
  config : (settings.sourcePath.join settings.addonConfig).Avoids zones
  sources : ∀ name, some name ∈ settings.aceSources → (settings.sourcePath.join name).Avoids zones
  scripts : ∀ name ∈ settings.editorScripts, (settings.sourcePath.join name).Avoids zones
  lexicons : ∀ directory tag, settings.langPath? = some directory →
    some tag ∈ settings.languageTags ∨ tag = namelessTag →
      (Lexicon.tablePath directory tag).Avoids zones
  /-- The configuration names further files. -/
  copies : ∀ m, Config.load t (settings.sourcePath.join settings.addonConfig) = .ok m →
    ∀ name ∈ copiedNames m, (settings.sourcePath.join name).Avoids zones

section Stages

variable {zones : List Place} {t₁ t₂ : Tree}

theorem steady_readSources (h : Tree.AgreeOutside zones t₁ t₂) {directory : Path}
    {names : List (Option String)}
    (hnames : ∀ name, some name ∈ names → (directory.join name).Avoids zones) :
    Steady t₁ t₂ (readSources directory names) := by
  induction names with
  | nil => exact twins_pure _
  | cons name rest ih =>
    cases name with
    | none => exact twins_throw _
    | some name =>
      exact (steady_readText h (hnames name List.mem_cons_self)).bind fun _ =>
        (ih fun other hother => hnames other (List.mem_cons_of_mem _ hother)).bind fun _ =>
          twins_pure _

theorem steady_extractSources (context : Annotated.Context) (sources : List (String × String)) :
    Steady t₁ t₂ (extractSources context sources) := by
  induction sources generalizing context with
  | nil => exact twins_pure _
  | cons source rest ih =>
    exact (steady_warn _).bind fun _ => (steady_ofAttempt _).bind fun _ => ih _

theorem steady_compileScripts (h : Tree.AgreeOutside zones t₁ t₂) (compiler : Compiler)
    {settings : Settings} {names : List String} (texts : Fields String)
    (hnames : ∀ name ∈ names, (settings.sourcePath.join name).Avoids zones) :
    Steady t₁ t₂ (compileScripts compiler settings texts names) := by
  induction names generalizing texts with
  | nil => exact twins_pure _
  | cons name rest ih =>
    obtain ⟨hname, hrest⟩ := List.forall_mem_cons.mp hnames
    unfold compileScripts
    refine (steady_isFile h hname).bind fun there => ?_
    cases there with
    | true =>
      exact (steady_readText h hname).bind fun _ => (steady_compile _ _ _).bind fun _ => ih _ hrest
    | false => exact (steady_warn _).bind fun _ => (twins_pure _).bind fun _ => ih _ hrest

theorem steady_localize (h : Tree.AgreeOutside zones t₁ t₂) (m : Manifest) (registry : Ace.Registry)
    {directory : Option Path} {tags : List (Option String)} (done : Fields Localization)
    (hp : ∀ d tag, directory = some d → some tag ∈ tags ∨ tag = namelessTag →
      (Lexicon.tablePath d tag).Avoids zones) :
    Steady t₁ t₂ (localize m registry directory done tags) := by
  induction tags generalizing done with
  | nil => exact twins_pure _
  | cons tag rest ih =>
    have hin : ∀ tag', (∀ d, directory = some d → (Lexicon.tablePath d tag').Avoids zones) →
        Steady t₁ t₂ (localizeIn m registry directory tag') := fun tag' htag =>
      (steady_loadTable h htag).bind fun _ => steady_ofAttempt _
    cases tag with
    | none => exact (hin _ fun d hd => hp d _ hd (.inr rfl)).bind fun _ => twins_throw _
    | some tag =>
      exact (hin tag fun d hd => hp d tag hd (.inl List.mem_cons_self)).bind fun _ =>
        ih _ fun d tag' hd htag => hp d tag' hd (htag.imp_left (List.mem_cons_of_mem _))

theorem steady_addCopy (h : Tree.AgreeOutside zones t₁ t₂) (copies : Fields Path) (name : String)
    {p : Path} (hp : p.Avoids zones) (warning : String) :
    Steady t₁ t₂ (addCopy copies name p warning) := by
  refine (steady_isFile h hp).bind fun there => ?_
  cases there with
  | true => exact twins_pure _
  | false => exact (steady_warn _).bind fun _ => twins_pure _

theorem steady_addDependencies (h : Tree.AgreeOutside zones t₁ t₂) {directory : Path}
    {files : List FileDependency} (copies : Fields Path)
    (hfiles : ∀ d ∈ files, (directory.join d.filename).Avoids zones) :
    Steady t₁ t₂ (addDependencies directory copies files) := by
  induction files generalizing copies with
  | nil => exact twins_pure _
  | cons d rest ih =>
    obtain ⟨hd, hrest⟩ := List.forall_mem_cons.mp hfiles
    exact (steady_addCopy h _ _ hd _).bind fun _ => ih _ hrest

theorem steady_collectCopies (h : Tree.AgreeOutside zones t₁ t₂) {m : Manifest} {directory : Path}
    (hnames : ∀ name ∈ copiedNames m, (directory.join name).Avoids zones) :
    Steady t₁ t₂ (collectCopies m directory) := by
  refine steady_look_bind rfl fun icon hicon => ?_
  refine (steady_addCopy h _ _ (hnames icon (mem_copiedNames_icon hicon)) _).bind fun _ => ?_
  exact steady_addDependencies h _ fun d hd =>
    hnames d.filename (List.mem_append_right _ (List.mem_map_of_mem hd))

/-- **Preparation ends alike** in two trees that agree on all that is read. -/
theorem prepare_twin {settings : Settings} (compiler : Compiler) {s₁ s₂ : Session}
    (h : Tree.AgreeOutside zones s₁.tree s₂.tree) (hreads : ReadsOutside settings zones s₁.tree) :
    Twin (Parallel s₁.tree s₂.tree) (prepare settings compiler s₁)
      (prepare settings compiler s₂) := by
  have hconfig : Config.load s₁.tree (settings.sourcePath.join settings.addonConfig) =
      Config.load s₂.tree (settings.sourcePath.join settings.addonConfig) := by
    unfold Config.load
    rw [h.readText hreads.config]
  -- What was remembered is forgotten first; from then on the sessions are parallel.
  refine (clearCache_twin s₁ s₂).bind fun _ u₁ u₂ _ _ hu =>
    Twins.bind (steady_enter _) (fun _ => ?_) u₁ u₂ hu
  refine steady_look_bind hconfig fun m hm => ?_
  refine (steady_readSources h hreads.sources).bind fun sources => (steady_enter _).bind fun _ => ?_
  refine (steady_extractSources _ _).bind fun extracted => (steady_enter _).bind fun _ => ?_
  refine (steady_enter _).bind fun _ => Twins.bind ?_ fun texts => (steady_enter _).bind fun _ => ?_
  · exact (steady_compile _ _ _).bind fun _ => steady_compileScripts h _ _ hreads.scripts
  · refine Twins.bind ?_ fun artifacts => twins_pure _
    exact (steady_ofAttempt _).bind fun _ => (steady_localize h _ _ _ hreads.lexicons).bind fun _ =>
      (steady_collectCopies h (hreads.copies m hm)).bind fun _ => twins_pure _

end Stages

end Addon.Build
