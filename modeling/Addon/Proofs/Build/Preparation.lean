import Addon.Proofs.Attempt
import Addon.Proofs.Build.Step
import Addon.Proofs.Fields
import Addon.Proofs.File.Path

/-!
# Preparation — what a build does before it writes

A build reads, extracts, compiles and assembles before it writes anything. That part of it is
`prepare`, and the rest is to write what was prepared. Preparing leaves the files alone, whether it
succeeds or fails, and its artifacts start with the catalogue.

## The architecture

* **`prepare`**, **`build_eq`** — a build is its preparation followed by its writing.
* **`Step.Advances`** — a step that changes no file, does not enter the stage of writing and takes
  no warning back; kept by chains.
* **`Step.Reads`** — such a step that leaves the remembered lexicons alone too.
* **`advances_prepare`**, **`quiet_prepare`** — preparation advances.
* **`prepare_trace`**, **`assemble_eq_ok`** — the steps behind what was prepared.
* **`documents_of_prepare`**, **`copies_of_prepare`** — where the artifacts come from.
-/

namespace Addon.Build

open File Descriptor

variable {settings : Settings} {m : Manifest} {s s' : Session} {α β : Type} {x : Step α}
  {f : α → Step β}
  {copies result : Fields Path} {compiler : Compiler}

/-- What a build has made before it writes. -/
structure Prepared where
  manifest : Manifest
  registry : Ace.Registry
  artifacts : Artifacts

/-- The stages of a build before it writes. -/
def prepare (settings : Settings) (compiler : Compiler) : Step Prepared := do
  Step.clearCache
  Step.enter .parsing
  let m ← Step.look fun t => Config.load t (settings.sourcePath.join settings.addonConfig)
  let sources ← readSources settings.sourcePath settings.aceSources
  Step.enter .extracting
  let context ← extractSources {} sources
  Step.enter .rewriting
  Step.enter .compiling
  let texts ← compileAll settings compiler m (bundle context.stripped)
  Step.enter .assembling
  let artifacts ← assemble settings m context.registry texts
  return ⟨m, context.registry, artifacts⟩

/-- The stages of a build that write what was prepared. -/
def finish (settings : Settings) (made : Prepared) : Step Result := do
  Step.enter .writing
  let (written, path) ← Step.work (writeAll settings made.manifest made.artifacts)
  Step.enter .done
  return ⟨made.manifest, made.registry, made.artifacts.documents.keys, settings.exportPath,
    written, path⟩

theorem stages_eq (settings : Settings) (compiler : Compiler) :
    stages settings compiler = prepare settings compiler >>= finish settings := by
  unfold stages prepare
  simp only [run_bind_assoc]
  rfl

theorem run_finish (settings : Settings) (made : Prepared) (s : Session) :
    finish settings made s = match writeAll settings made.manifest made.artifacts s.tree with
      | .error e t => .error e { s.enter .writing with tree := t }
      | .ok (written, path) t =>
        .ok ⟨made.manifest, made.registry, made.artifacts.documents.keys, settings.exportPath,
          written, path⟩
          ({ s.enter .writing with tree := t }.enter .done) := by
  unfold finish
  rw [run_bind]
  change (Step.work (writeAll settings made.manifest made.artifacts) >>= _) (s.enter .writing) = _
  rw [run_bind]
  unfold Step.work
  rw [show (s.enter .writing).tree = s.tree from rfl]
  cases writeAll settings made.manifest made.artifacts s.tree <;> rfl

/-- **The runs of a build.** It fails while it prepares or while it writes, or it is done. -/
theorem build_eq (settings : Settings) (compiler : Compiler) (s : Session) :
    build settings compiler s = match prepare settings compiler s with
      | .error e s₁ => .error e (s₁.enter .failed)
      | .ok made s₁ => match writeAll settings made.manifest made.artifacts s₁.tree with
        | .error e t => .error e ({ s₁.enter .writing with tree := t }.enter .failed)
        | .ok (written, path) t =>
          .ok ⟨made.manifest, made.registry, made.artifacts.documents.keys, settings.exportPath,
            written, path⟩
            ({ s₁.enter .writing with tree := t }.enter .done) := by
  unfold build
  rw [stages_eq, run_bind]
  cases prepare settings compiler s with
  | error e s₁ => rfl
  | ok made s₁ =>
    dsimp only
    rw [run_finish]
    cases writeAll settings made.manifest made.artifacts s₁.tree <;> rfl

theorem writeAll_of_writeExport_error {a : Artifacts} {e : Failure}
    {t u : Tree} (h : writeExport settings.exportPath a t = .error e u) :
    writeAll settings m a t = .error e u :=
  run_bind_eq_error.mpr (.inl h)

/-! ## Steps that leave the files alone

Lexicons are remembered on the way; all else is only read. -/

/-- A session after steps that read and assemble: its files are the same, stages other than that of
writing may have been reached, and warnings may have been given. -/
structure Session.Advances (s s' : Session) : Prop where
  tree : s'.tree = s.tree
  stages : ∃ reached, s'.stages = s.stages ++ reached ∧ Stage.writing ∉ reached
  warnings : s.warnings <+: s'.warnings

theorem Session.Advances.refl (s : Session) : s.Advances s :=
  ⟨rfl, ⟨[], (List.append_nil _).symm, by simp⟩, List.prefix_rfl⟩

theorem Session.Advances.trans {s'' : Session} (h : s.Advances s') (h' : s'.Advances s'') :
    s.Advances s'' := by
  obtain ⟨reached, hreached, hwriting⟩ := h.stages
  obtain ⟨more, hmore, hwriting'⟩ := h'.stages
  refine ⟨h'.tree.trans h.tree, ⟨reached ++ more, ?_, by simp [hwriting, hwriting']⟩,
    h.warnings.trans h'.warnings⟩
  rw [hmore, hreached, List.append_assoc]

instance : IsTrans Session Session.Advances := ⟨fun _ _ _ => .trans⟩

/-- A session after steps that read and compile: the remembered lexicons are the same too. -/
structure Session.Reads (s s' : Session) : Prop extends s.Advances s' where
  cache : s'.cache = s.cache

instance : IsTrans Session Session.Reads :=
  ⟨fun _ _ _ h h' => ⟨h.toAdvances.trans h'.toAdvances, h'.cache.trans h.cache⟩⟩

namespace Step

/-- A step that neither changes files nor enters the stage of writing. -/
def Quiet {α : Type} (x : Step α) : Prop :=
  ∀ s, (left (x s)).tree = s.tree ∧
    ∃ reached, (left (x s)).stages = s.stages ++ reached ∧ Stage.writing ∉ reached

/-- A step that relates the session before to the one after, also if the step fails. -/
def Leads (R : Session → Session → Prop) (x : Step α) : Prop :=
  ∀ s, R s (left (x s))

theorem Leads.bind {R : Session → Session → Prop} [IsTrans Session R] (hx : Leads R x)
    (hf : ∀ a, Leads R (f a)) : Leads R (x >>= f) := by
  intro s
  have hfirst := hx s
  rw [run_bind]
  cases hxs : x s with
  | error e s₁ => exact left_of_error hxs ▸ hfirst
  | ok a s₁ => exact IsTrans.trans _ _ _ (left_of_ok hxs ▸ hfirst) (hf a s₁)

/-- A chain that came to its end goes on from a session that is so related. -/
theorem Leads.next {R : Session → Session → Prop} [IsTrans Session R] {s₀ : Session} {b : β}
    (hx : Leads R x) (hs : R s₀ s) (h : (x >>= f) s = .ok b s') :
    ∃ a s₁, R s₀ s₁ ∧ x s = .ok a s₁ ∧ f a s₁ = .ok b s' := by
  obtain ⟨a, s₁, hxs, h⟩ := run_bind_eq_ok.mp h
  exact ⟨a, s₁, IsTrans.trans _ _ _ hs (left_of_ok hxs ▸ hx s), hxs, h⟩

abbrev Advances (x : Step α) : Prop :=
  Leads Session.Advances x

abbrev Reads (x : Step α) : Prop :=
  Leads Session.Reads x

theorem Reads.advances (h : Reads x) : Advances x := fun s =>
  (h s).toAdvances

theorem reads_of_same (h : ∀ s, left (x s) = s) : Reads x := fun s => by
  rw [h]
  exact ⟨.refl s, rfl⟩

theorem reads_pure (a : α) : Reads (pure a) :=
  reads_of_same fun _ => rfl

theorem reads_look (f : Tree → Attempt α) : Reads (look f) :=
  reads_of_same fun s => by
    unfold look
    cases f s.tree <;> rfl

theorem reads_ofAttempt (a : Attempt α) : Reads (ofAttempt a) :=
  reads_look _

theorem reads_enter {stage : Stage} (h : stage ≠ .writing) : Reads (enter stage) := fun _ =>
  ⟨⟨rfl, ⟨[stage], rfl, by simpa using Ne.symm h⟩, List.prefix_rfl⟩, rfl⟩

theorem reads_warn (texts : List String) : Reads (warn texts) := fun s =>
  ⟨⟨rfl, ⟨[], (List.append_nil _).symm, by simp⟩, List.prefix_append s.warnings texts⟩, rfl⟩

theorem reads_readText (p : Path) : Reads (readText p) :=
  (reads_look _).bind fun _ => reads_pure _

theorem reads_compile (compiler : Compiler) (options : CompileOptions) (source : String) :
    Reads (compile compiler options source) := by
  refine Leads.bind (fun s => ?_) fun _ => reads_ofAttempt _
  exact ⟨⟨rfl, ⟨[], (List.append_nil _).symm, by simp⟩, List.prefix_rfl⟩, rfl⟩

theorem advances_clearCache : Advances clearCache := fun _ =>
  ⟨rfl, ⟨[], (List.append_nil _).symm, by simp⟩, List.prefix_rfl⟩

theorem advances_loadTable (directory : Option Path) (tag : String) :
    Advances (loadTable directory tag) := fun s => by
  unfold loadTable
  rcases Lexicon.load s.tree directory tag s.cache with ⟨_ | _, _⟩
  all_goals exact ⟨rfl, ⟨[], (List.append_nil _).symm, by simp⟩, List.prefix_rfl⟩

end Step

open Step

theorem reads_readSources (directory : Path) (names : List (Option String)) :
    Reads (readSources directory names) := by
  induction names with
  | nil => exact reads_pure _
  | cons name rest ih =>
    cases name with
    | none => exact reads_of_same fun _ => rfl
    | some name => exact (reads_readText _).bind fun _ => ih.bind fun _ => reads_pure _

theorem reads_extractSources (context : Annotated.Context) (sources : List (String × String)) :
    Reads (extractSources context sources) := by
  induction sources generalizing context with
  | nil => exact reads_pure _
  | cons source rest ih =>
    exact (reads_warn _).bind fun _ => (reads_ofAttempt _).bind fun _ => ih _

theorem reads_compileScripts (compiler : Compiler) (settings : Settings) (texts : Fields String)
    (names : List String) : Reads (compileScripts compiler settings texts names) := by
  induction names generalizing texts with
  | nil => exact reads_pure _
  | cons name rest ih =>
    unfold compileScripts
    refine (reads_look _).bind fun there => ?_
    cases there with
    | true => exact (reads_readText _).bind fun _ => (reads_compile _ _ _).bind fun _ => ih _
    | false => exact (reads_warn _).bind fun _ => (reads_pure _).bind fun _ => ih _

theorem reads_compileAll (settings : Settings) (compiler : Compiler) (m : Manifest)
    (source : String) :
    Reads (compileAll settings compiler m source) :=
  (reads_compile _ _ _).bind fun _ => reads_compileScripts _ _ _ _

theorem reads_addCopy (copies : Fields Path) (name : String) (p : Path) (warning : String) :
    Reads (addCopy copies name p warning) := by
  refine (reads_look _).bind fun there => ?_
  cases there with
  | true => exact reads_pure _
  | false => exact (reads_warn _).bind fun _ => reads_pure _

theorem reads_addDependencies (directory : Path) (copies : Fields Path)
    (files : List FileDependency) :
    Reads (addDependencies directory copies files) := by
  induction files generalizing copies with
  | nil => exact reads_pure _
  | cons d rest ih => exact (reads_addCopy _ _ _ _).bind fun _ => ih _

theorem reads_collectCopies (m : Manifest) (directory : Path) : Reads (collectCopies m directory) :=
  (reads_ofAttempt _).bind fun _ => (reads_addCopy _ _ _ _).bind fun _ =>
    reads_addDependencies _ _ _

theorem advances_localizeIn (m : Manifest) (registry : Ace.Registry) (directory : Option Path)
    (tag : String) : Advances (localizeIn m registry directory tag) :=
  (advances_loadTable _ _).bind fun _ => (reads_ofAttempt _).advances

theorem advances_localize (m : Manifest) (registry : Ace.Registry) (directory : Option Path)
    (done : Fields Localization) (tags : List (Option String)) :
    Advances (localize m registry directory done tags) := by
  induction tags generalizing done with
  | nil => exact (reads_pure _).advances
  | cons tag rest ih =>
    cases tag with
    | none => exact (advances_localizeIn _ _ _ _).bind fun _ => .refl
    | some tag => exact (advances_localizeIn _ _ _ _).bind fun _ => ih _

theorem advances_assemble (settings : Settings) (m : Manifest) (registry : Ace.Registry)
    (texts : Fields String) : Advances (assemble settings m registry texts) :=
  (reads_ofAttempt _).advances.bind fun _ => (advances_localize _ _ _ _ _).bind fun _ =>
    (reads_collectCopies _ _).advances.bind fun _ => (reads_pure _).advances

theorem advances_prepare (settings : Settings) (compiler : Compiler) :
    Advances (prepare settings compiler) :=
  advances_clearCache.bind fun _ => (reads_enter (by decide)).advances.bind fun _ =>
    (reads_look _).advances.bind fun _ => (reads_readSources _ _).advances.bind fun _ =>
    (reads_enter (by decide)).advances.bind fun _ =>
      (reads_extractSources _ _).advances.bind fun _ =>
    (reads_enter (by decide)).advances.bind fun _ =>
      (reads_enter (by decide)).advances.bind fun _ =>
    (reads_compileAll _ _ _ _).advances.bind fun _ =>
      (reads_enter (by decide)).advances.bind fun _ =>
    (advances_assemble _ _ _ _).bind fun _ => (reads_pure _).advances

/-- **Preparing a build changes no file.** -/
theorem quiet_prepare (settings : Settings) (compiler : Compiler) :
    Quiet (prepare settings compiler) :=
  fun s => ⟨(advances_prepare settings compiler s).tree,
    (advances_prepare settings compiler s).stages⟩

/-! ## Where the artifacts come from -/

/-- The names that the files to be copied have in the directory of the sources. -/
def copiedNames (m : Manifest) : List String :=
  (match m.icon with
    | .str name => [name]
    | _ => []) ++ m.fileDependencies.map (·.filename)

theorem mem_copiedNames_icon {icon : String} (h : iconName m = .ok icon) :
    icon ∈ copiedNames m := by
  unfold iconName at h
  split at h
  · next name heq =>
    cases h
    simp [copiedNames, heq]
  · cases h

theorem isFile_eq_ok {p : Path} {there : Bool} :
    Step.isFile p s = .ok there s' ↔ s.tree.isFile p = .ok there ∧ s' = s := by
  rw [Step.isFile, Step.look_eq_ok]
  cases s.tree.isFile p <;> simp [Attempt.ofFile]

/-- A file that is there is taken. One that is not there is only warned about. -/
theorem addCopy_eq_ok {name : String} {p : Path} {warning : String}
    (h : addCopy copies name p warning s = .ok result s') :
    (s' = s ∧ result = copies.insert name p ∧ s.tree.isFile p = .ok true) ∨
    (s' = { s with warnings := s.warnings ++ [warning] } ∧ result = copies ∧
      s.tree.isFile p = .ok false) := by
  obtain ⟨there, s₁, hthere, h⟩ := run_bind_eq_ok.mp h
  obtain ⟨hthere, rfl⟩ := isFile_eq_ok.mp hthere
  cases there with
  | true =>
    cases h
    exact .inl ⟨rfl, rfl, hthere⟩
  | false =>
    cases h
    exact .inr ⟨rfl, rfl, hthere⟩

theorem mem_addCopy {name : String} {p : Path} {warning : String}
    (h : addCopy copies name p warning s = .ok result s') :
    ∀ copy ∈ result, copy ∈ copies ∨ copy.2 = p := by
  rcases addCopy_eq_ok h with ⟨-, rfl, -⟩ | ⟨-, rfl, -⟩
  · intro copy hcopy
    exact (Fields.mem_of_mem_insert hcopy).imp_right fun heq => congrArg (·.2) heq
  · exact fun copy hcopy => .inl hcopy

theorem mem_addDependencies {directory : Path} {files : List FileDependency}
    (h : addDependencies directory copies files s = .ok result s') :
    ∀ copy ∈ result, copy ∈ copies ∨ ∃ d ∈ files, copy.2 = directory.join d.filename := by
  induction files generalizing copies s with
  | nil =>
    cases h
    exact fun copy hcopy => .inl hcopy
  | cons d rest ih =>
    obtain ⟨more, s₁, hadd, h⟩ := run_bind_eq_ok.mp h
    intro copy hcopy
    rcases ih h copy hcopy with hmore | ⟨other, hother, hpath⟩
    · exact (mem_addCopy hadd copy hmore).imp_right fun hp => ⟨d, List.mem_cons_self, hp⟩
    · exact .inr ⟨other, List.mem_cons_of_mem d hother, hpath⟩

/-- Files are copied from the directory of the sources. -/
theorem mem_collectCopies {directory : Path} (h : collectCopies m directory s = .ok result s') :
    ∀ copy ∈ result, ∃ name ∈ copiedNames m, copy.2 = directory.join name := by
  obtain ⟨icon, s₁, hicon, h⟩ := run_bind_eq_ok.mp h
  obtain ⟨copies, s₂, hadd, h⟩ := run_bind_eq_ok.mp h
  have hmem := mem_copiedNames_icon (Step.look_eq_ok.mp hicon).1
  intro copy hcopy
  rcases mem_addDependencies h copy hcopy with hold | ⟨d, hd, hpath⟩
  · rcases mem_addCopy hadd copy hold with hnil | hpath
    · cases hnil
    · exact ⟨icon, hmem, hpath⟩
  · exact ⟨d.filename, List.mem_append_right _ (List.mem_map_of_mem hd), hpath⟩

/-- What was assembled, with the steps that gave it. -/
theorem assemble_eq_ok {registry : Ace.Registry} {texts : Fields String} {a : Artifacts}
    (h : assemble settings m registry texts s = .ok a s') :
    ∃ c languages copies s₁, catalogue registry = .ok c ∧
      localize m registry settings.langPath? [] settings.languageTags s = .ok languages s₁ ∧
      collectCopies m settings.sourcePath s₁ = .ok copies s' ∧
      a = ⟨documentsOf m registry settings c languages, withPlaceholders texts, copies⟩ := by
  obtain ⟨c, s₁, hlook, hrest⟩ := run_bind_eq_ok.mp h
  obtain ⟨hcatalogue, rfl⟩ := look_eq_ok.mp hlook
  obtain ⟨languages, s₂, hlanguages, hrest⟩ := run_bind_eq_ok.mp hrest
  obtain ⟨copies, s₃, hcopies, hrest⟩ := run_bind_eq_ok.mp hrest
  cases hrest
  exact ⟨c, languages, copies, s₂, Attempt.ofMisfit_eq_ok.mp hcatalogue, hlanguages, hcopies, rfl⟩

variable {made : Prepared}

/-- What was prepared, with the steps that gave it. No lexicon is remembered when
the first one is read. -/
theorem prepare_trace (h : prepare settings compiler s = .ok made s') :
    ∃ sources context texts s₁ s₂ s₃ s₄ s₅ s₆ s₇,
      Config.load s.tree (settings.sourcePath.join settings.addonConfig) = .ok made.manifest ∧
      s.Advances s₁ ∧ readSources settings.sourcePath settings.aceSources s₁ = .ok sources s₂ ∧
      extractSources {} sources s₃ = .ok context s₄ ∧ made.registry = context.registry ∧
      compileAll settings compiler made.manifest (bundle context.stripped) s₅ = .ok texts s₆ ∧
      s.Advances s₇ ∧ s₇.cache = {} ∧
      assemble settings made.manifest made.registry texts s₇ = .ok made.artifacts s' := by
  obtain ⟨_, s₁, h₁, hclear, h⟩ := advances_clearCache.next (.refl s) h
  obtain ⟨_, s₂, h₂, henter, h⟩ := (reads_enter (by decide)).next ⟨.refl s₁, rfl⟩ h
  obtain ⟨m, s₃, h₃, hconfig, h⟩ := (reads_look _).next h₂ h
  obtain ⟨sources, s₄, h₄, hsources, h⟩ := (reads_readSources _ _).next h₃ h
  obtain ⟨_, s₅, h₅, hextracting, h⟩ := (reads_enter (by decide)).next h₄ h
  obtain ⟨context, s₆, h₆, hcontext, h⟩ := (reads_extractSources _ _).next h₅ h
  obtain ⟨_, s₇, h₇, hrewriting, h⟩ := (reads_enter (by decide)).next h₆ h
  obtain ⟨_, s₈, h₈, hcompiling, h⟩ := (reads_enter (by decide)).next h₇ h
  obtain ⟨texts, s₉, h₉, htexts, h⟩ := (reads_compileAll _ _ _ _).next h₈ h
  obtain ⟨_, t, ht, hassembling, h⟩ := (reads_enter (by decide)).next h₉ h
  obtain ⟨a, t', hassemble, h⟩ := run_bind_eq_ok.mp h
  cases h
  cases hclear
  cases henter
  cases hextracting
  cases hrewriting
  cases hcompiling
  cases hassembling
  obtain ⟨hload, rfl⟩ := look_eq_ok.mp hconfig
  exact ⟨sources, context, texts, _, s₄, _, s₆, _, s₉, _, hload, h₁.trans h₃.toAdvances, hsources,
    hcontext, rfl, htexts, h₁.trans ht.toAdvances, ht.cache, hassemble⟩

theorem prepare_eq_ok (h : prepare settings compiler s = .ok made s') :
    ∃ source texts s₁ s₂ s₃,
      Config.load s.tree (settings.sourcePath.join settings.addonConfig) = .ok made.manifest ∧
      compileAll settings compiler made.manifest source s₁ = .ok texts s₂ ∧ s.Advances s₃ ∧
      assemble settings made.manifest made.registry texts s₃ = .ok made.artifacts s' := by
  obtain ⟨_, context, texts, _, _, _, _, s₅, s₆, s₇, hload, -, -, -, -, htexts, hs₇, -,
    hassemble⟩ :=
    prepare_trace h
  exact ⟨_, texts, s₅, s₆, s₇, hload, htexts, hs₇, hassemble⟩

theorem head_merge {α : Type} (f : String × α) (fs gs : Fields α) :
    ∃ a rest, Fields.merge (f :: fs) gs = (f.1, a) :: rest := by
  induction gs generalizing f fs with
  | nil => exact ⟨f.2, fs, rfl⟩
  | cons g gs ih =>
    unfold Fields.merge
    rw [List.foldl_cons, Fields.insert]
    split
    · next heq =>
      obtain ⟨a, rest, h⟩ := ih (g.1, g.2) fs
      exact ⟨a, rest, heq ▸ h⟩
    · exact ih f (Fields.insert fs g.1 g.2)

/-- The catalogue is written first. -/
theorem documents_of_prepare (h : prepare settings compiler s = .ok made s') :
    ∃ d rest, made.artifacts.documents = (catalogueFile, d) :: rest := by
  obtain ⟨_, _, _, _, _, -, -, -, hassemble⟩ := prepare_eq_ok h
  obtain ⟨c, languages, copies, _, -, -, -, hartifacts⟩ := assemble_eq_ok hassemble
  obtain ⟨d, rest, hmerge⟩ := head_merge (catalogueFile, Document.ofValue c.toValue)
    [(addonFile, Document.ofValue
      (addonValue made.manifest made.registry.dispatch settings.tags settings.editorScripts))]
    (languages.map fun l => (languageFile l.1, localizationDocument l.2))
  exact ⟨d, rest, by rw [hartifacts]; exact hmerge⟩

theorem copies_of_prepare (h : prepare settings compiler s = .ok made s') :
    ∀ copy ∈ made.artifacts.copies,
      ∃ name ∈ copiedNames made.manifest, copy.2 = settings.sourcePath.join name := by
  obtain ⟨_, _, _, _, _, -, -, -, hassemble⟩ := prepare_eq_ok h
  obtain ⟨c, languages, copies, _, -, -, hcopies, hartifacts⟩ := assemble_eq_ok hassemble
  rw [hartifacts]
  exact mem_collectCopies hcopies

/-! ## A small project -/

/-- Settings for a project with a configuration, an icon and nothing to extract. -/
def smallSettings : Settings where
  projectDir := .mk .root ["w"]
  addonConfig := "a.json"
  aceSources := []
  langDir := some "src/lang"

def smallTree : Tree :=
  .mk [(["w"], .directory), (["w", "src"], .directory),
    (["w", "src", "a.json"],
      .file (.ofText
        "\x7b\"addonType\":\"plugin\",\"id\":\"a\",\"name\":\"A\",\"version\":\"1\"\x7d")),
    (["w", "src", "icon.svg"], .file (.ofText "<svg/>"))]

def smallSession : Session where
  tree := smallTree

end Addon.Build
