import Addon.Proofs.Build.Export
import Addon.Proofs.Build.Writing
import Addon.Proofs.Descriptor.Agreement

/-!
# File list — the document of the addon file lists what is written

The addon file lists the files of an addon before any of them is gathered: it is made of the
manifest and the settings. The files are gathered on another way, in tables of documents, texts and
copies, where a name that is there already is replaced or left as it is. Both come to the same
names, apart from files that are copied and are not there.

## The architecture

* **`mem_keys_compileAll`**, **`mem_keys_withPlaceholders`**, **`mem_keys_documentsOf`** — the names
  of the texts and of the documents.
* **`Gathers`** — files that are wanted are taken, or they are `Missed` with a warning; the step is
  `gathers_addCopy` and the run `gathers_addDependencies`.
* **`names_of_prepare`** — the names of all that a build has prepared.
* **`lists_of_build`** — the file list of a build against the names that it has written.
-/

namespace Addon.Build

open File Descriptor

variable {compiler : Compiler} {settings : Settings} {texts : Fields String} {s s' : Session}
  {m : Manifest}
  {t : Tree} {copies result : Fields Path} {directory : Path} {a : Artifacts}
  {written : List String}

/-! ## Texts -/

/-- Each editor script is put into the table, with its own text or an empty one. -/
theorem compileScripts_eq_merge {result : Fields String} {names : List String}
    (h : compileScripts compiler settings texts names s = .ok result s') :
    ∃ added : Fields String, added.keys = names ∧ result = texts.merge added := by
  induction names generalizing texts s with
  | nil =>
    cases h
    exact ⟨[], rfl, rfl⟩
  | cons script rest ih =>
    unfold compileScripts at h
    obtain ⟨there, s₁, -, h⟩ := run_bind_eq_ok.mp h
    obtain ⟨text, s₂, h⟩ :
      ∃ text s₂, compileScripts compiler settings (texts.insert script text) rest s₂ =
        .ok result s' := by
      cases there with
      | true =>
        obtain ⟨source, s₂, -, h⟩ := run_bind_eq_ok.mp h
        obtain ⟨text, s₃, -, h⟩ := run_bind_eq_ok.mp h
        exact ⟨text, s₃, h⟩
      | false =>
        obtain ⟨_, s₂, -, h⟩ := run_bind_eq_ok.mp h
        obtain ⟨text, s₃, -, h⟩ := run_bind_eq_ok.mp h
        exact ⟨text, s₃, h⟩
    obtain ⟨added, hkeys, rfl⟩ := ih h
    exact ⟨(script, text) :: added, by rw [Fields.keys_cons, hkeys], rfl⟩

theorem mem_keys_compileAll {source : String}
    (h : compileAll settings compiler m source s = .ok texts s') (name : String) :
    name ∈ texts.keys ↔ name = bundleFile m.addonType ∨ name ∈ settings.editorScripts := by
  obtain ⟨text, s₁, -, h⟩ := run_bind_eq_ok.mp h
  obtain ⟨added, hkeys, rfl⟩ := compileScripts_eq_merge h
  rw [Fields.mem_keys_merge, hkeys]
  simp

theorem mem_keys_addDefault (texts : Fields String) (name other : String) :
    other ∈ (addDefault texts name).keys ↔ other ∈ texts.keys ∨ other = name := by
  unfold addDefault
  split
  · next h =>
    have hname : name ∈ texts.keys := by simpa [Fields.contains, Fields.keys] using h
    grind
  · rw [Fields.mem_keys_insert, or_comm]

theorem mem_keys_foldl_addDefault (files : List String) (texts : Fields String) (name : String) :
    name ∈ (files.foldl addDefault texts).keys ↔ name ∈ texts.keys ∨ name ∈ files := by
  induction files generalizing texts with
  | nil => simp
  | cons file rest ih =>
    rw [List.foldl_cons, ih, mem_keys_addDefault, List.mem_cons]
    tauto

/-- The texts are the fixed files of the addon's type and the editor scripts. -/
theorem mem_keys_withPlaceholders {source : String}
    (h : compileAll settings compiler m source s = .ok texts s') (name : String) :
    name ∈ (withPlaceholders texts).keys ↔
      name ∈ runtimeFiles m.addonType ∨ name ∈ settings.editorScripts := by
  rw [withPlaceholders, mem_keys_foldl_addDefault, mem_keys_compileAll h]
  simp only [runtimeFiles, List.map_append, List.map_cons, List.map_nil, List.mem_append,
    List.mem_cons, List.not_mem_nil, or_false]
  tauto

/-! ## Documents -/

theorem mem_keys_documentsOf {registry : Ace.Registry}
    {catalogue : Catalogue} {languages : Fields Localization} {name : String} :
    name ∈ (documentsOf m registry settings catalogue languages).keys ↔
      name ∈ [catalogueFile, addonFile] ∨ name ∈ languages.keys.map languageFile := by
  rw [documentsOf, Fields.mem_keys_merge]
  simp [Fields.keys]

theorem languageFile_ne_addonFile (tag : String) : languageFile tag ≠ addonFile := by
  intro h
  have := congrArg (fun text => text.toList.head?) h
  simp [languageFile, addonFile] at this

/-- The addon file is the document under its name: no language takes its place. -/
theorem get?_documentsOf_addonFile (m : Manifest) (registry : Ace.Registry) (settings : Settings)
    (catalogue : Catalogue) (languages : Fields Localization) :
    (documentsOf m registry settings catalogue languages).get? addonFile =
      some (Document.ofValue
        (addonValue m registry.dispatch settings.tags settings.editorScripts)) := by
  rw [documentsOf, Fields.get?_merge_of_not_mem]
  · rfl
  · intro h
    simp only [Fields.keys, List.map_map, List.mem_map, Function.comp_apply] at h
    obtain ⟨l, -, h⟩ := h
    exact languageFile_ne_addonFile l.1 h

theorem partAt_fileList (m : Manifest) (dispatch : Ace.ByKind (Fields Ace.MethodRef))
    (tags editorScripts : List String) :
    partAt (addonValue m dispatch tags editorScripts) ["file-list"] =
      some (.list (fileList m tags editorScripts)) := by
  simp [partAt, addonValue, Fields.get?]

/-! ## Copies

A file that is not there is left out, and there is a warning about it. -/

/-- A file that goes into the export as it is: its name there, where it is taken from, and the
warning if it is missing. -/
structure Wanted where
  name : String
  path : Path
  warning : String

/-- The icon of an addon. -/
def wantedIcon (directory : Path) (name : String) : Wanted :=
  ⟨name, directory.join name, missingIcon (directory.join name)⟩

/-- A further file of an addon. -/
def wantedDependency (directory : Path) (d : FileDependency) : Wanted :=
  ⟨runtimeFile d.filename, directory.join d.filename, missingDependency (directory.join d.filename)⟩

/-- The icon and the further files of an addon. -/
def wantedFiles (directory : Path) (icon : String) (files : List FileDependency) : List Wanted :=
  wantedIcon directory icon :: files.map (wantedDependency directory)

/-- The file is not there, and a warning says so. -/
structure Missed (t : Tree) (issued : List String) (w : Wanted) : Prop where
  absent : t.isFile w.path = .ok false
  warned : w.warning ∈ issued

theorem Missed.mono {issued more : List String} {w : Wanted} (h : Missed t issued w)
    (hsub : issued ⊆ more) : Missed t more w :=
  ⟨h.absent, hsub h.warned⟩

/-- What becomes of the copies while files are gathered, and with which warnings. -/
structure Gathers (t : Tree) (wanted : List Wanted) (issued : List String)
    (copies result : Fields Path) :
    Prop where
  kept : copies.keys ⊆ result.keys
  asked : ∀ name ∈ result.keys, name ∈ copies.keys ∨ ∃ w ∈ wanted, w.name = name
  taken : ∀ w ∈ wanted, w.name ∈ result.keys ∨ Missed t issued w

theorem Gathers.nil (t : Tree) (issued : List String) (copies : Fields Path) :
    Gathers t [] issued copies copies :=
  ⟨List.Subset.refl _, fun _ h => .inl h, by simp⟩

theorem Gathers.append {wanted more : List Wanted} {issued others : List String} {mid : Fields Path}
    (h : Gathers t wanted issued copies mid) (h' : Gathers t more others mid result) :
    Gathers t (wanted ++ more) (issued ++ others) copies result where
  kept := List.Subset.trans h.kept h'.kept
  asked name hname := by
    rcases h'.asked name hname with hmid | ⟨w, hw, heq⟩
    · rcases h.asked name hmid with hcopies | ⟨w, hw, heq⟩
      · exact .inl hcopies
      · exact .inr ⟨w, List.mem_append_left _ hw, heq⟩
    · exact .inr ⟨w, List.mem_append_right _ hw, heq⟩
  taken w hw := by
    rcases List.mem_append.mp hw with hw | hw
    · exact (h.taken w hw).imp (fun hmid => h'.kept hmid) (·.mono (List.subset_append_left _ _))
    · exact (h'.taken w hw).imp_right (·.mono (List.subset_append_right _ _))

/-- **The step.** A file that is there is taken, and one that is not is missed. -/
theorem gathers_addCopy {w : Wanted}
    (h : addCopy copies w.name w.path w.warning s = .ok result s') :
    ∃ issued, s' = { s with warnings := s.warnings ++ issued } ∧
      Gathers s.tree [w] issued copies result := by
  rcases addCopy_eq_ok h with ⟨rfl, rfl, -⟩ | ⟨rfl, rfl, habsent⟩
  · refine ⟨[], by rw [List.append_nil], fun name hname => ?_, fun name hname => ?_,
      fun v hv => .inl ?_⟩
    · exact Fields.mem_keys_insert.mpr (.inr hname)
    · exact (Fields.mem_keys_insert.mp hname).symm.imp_right fun heq => ⟨w, by simp, heq.symm⟩
    · obtain rfl := List.mem_singleton.mp hv
      exact Fields.mem_keys_insert.mpr (.inl rfl)
  · refine ⟨[w.warning], rfl, List.Subset.refl _, fun _ hname => .inl hname, fun v hv => .inr ?_⟩
    obtain rfl := List.mem_singleton.mp hv
    exact ⟨habsent, by simp⟩

/-- **The run** over the further files. -/
theorem gathers_addDependencies {files : List FileDependency}
    (h : addDependencies directory copies files s = .ok result s') :
    ∃ issued, s' = { s with warnings := s.warnings ++ issued } ∧
      Gathers s.tree (files.map (wantedDependency directory)) issued copies result := by
  induction files generalizing copies s with
  | nil =>
    cases h
    exact ⟨[], by rw [List.append_nil], .nil _ _ _⟩
  | cons d rest ih =>
    obtain ⟨mid, s₁, hadd, h⟩ := run_bind_eq_ok.mp h
    obtain ⟨issued, rfl, hfirst⟩ := gathers_addCopy (w := wantedDependency directory d) hadd
    obtain ⟨others, rfl, hrest⟩ := ih h
    exact ⟨issued ++ others, by rw [List.append_assoc], hfirst.append hrest⟩

theorem iconName_eq_ok {icon : String} (h : iconName m = .ok icon) : m.icon = .str icon := by
  unfold iconName at h
  split at h
  · next name heq =>
    cases h
    exact heq
  · cases h

theorem gathers_collectCopies (h : collectCopies m directory s = .ok result s') :
    ∃ icon issued, m.icon = .str icon ∧ s' = { s with warnings := s.warnings ++ issued } ∧
      Gathers s.tree (wantedFiles directory icon m.fileDependencies) issued [] result := by
  obtain ⟨icon, s₁, hlook, hcopies⟩ := run_bind_eq_ok.mp h
  obtain ⟨hicon, rfl⟩ := Step.look_eq_ok.mp hlook
  obtain ⟨copies, s₂, hadd, hdependencies⟩ := run_bind_eq_ok.mp hcopies
  obtain ⟨issued, rfl, hfirst⟩ := gathers_addCopy (w := wantedIcon directory icon) hadd
  obtain ⟨others, rfl, hrest⟩ := gathers_addDependencies hdependencies
  exact ⟨icon, issued ++ others, iconName_eq_ok hicon, by rw [List.append_assoc],
    hfirst.append hrest⟩

/-! ## Builds -/

/-- The names of the files that are written whatever files there are. -/
def ownNames (m : Manifest) (tags editorScripts : List String) : List String :=
  [catalogueFile, addonFile] ++ tags.map languageFile ++ (runtimeFiles m.addonType ++ editorScripts)

theorem mem_fileList {icon : String} (hicon : m.icon = .str icon)
    (tags editorScripts : List String) (directory : Path) (v : Value) :
    v ∈ fileList m tags editorScripts ↔
      ∃ name, v = .str name ∧ (name ∈ ownNames m tags editorScripts ∨
        ∃ w ∈ wantedFiles directory icon m.fileDependencies, w.name = name) := by
  have hlist : fileList m tags editorScripts = (runtimeFiles m.addonType ++ tags.map languageFile ++
      [catalogueFile, addonFile] ++ [icon] ++ editorScripts ++
      m.fileDependencies.map fun d => runtimeFile d.filename).map .str := by
    simp [fileList, hicon]
  have hwanted : ∀ name, (∃ w ∈ wantedFiles directory icon m.fileDependencies, w.name = name) ↔
      name = icon ∨ name ∈ m.fileDependencies.map fun d => runtimeFile d.filename := by
    simp [wantedFiles, wantedIcon, wantedDependency, eq_comm]
  simp only [hlist, hwanted, List.mem_map (f := Value.str), ownNames, List.mem_append,
    List.mem_singleton]
  constructor
  · rintro ⟨name, hname, rfl⟩
    exact ⟨name, rfl, by tauto⟩
  · rintro ⟨name, rfl, hname⟩
    exact ⟨name, by tauto, rfl⟩

/-- The names of the artifacts that were prepared, and the files that were missed. -/
theorem names_of_prepare {made : Prepared} (h : prepare settings compiler s = .ok made s') :
    ∃ icon issued copies, made.manifest.icon = .str icon ∧ s'.tree = s.tree ∧
      s'.warnings = s.warnings ++ issued ∧
      made.artifacts.documents.get? addonFile = some (Document.ofValue
        (addonValue made.manifest made.registry.dispatch settings.tags settings.editorScripts)) ∧
      (∀ name, name ∈ made.artifacts.names ↔
        name ∈ ownNames made.manifest settings.tags settings.editorScripts ∨
        name ∈ Fields.keys copies) ∧
      Gathers s.tree (wantedFiles settings.sourcePath icon made.manifest.fileDependencies) issued []
        copies := by
  obtain ⟨source, texts, s₁, s₂, s₃, -, htexts, hs₃, hassemble⟩ := prepare_eq_ok h
  obtain ⟨c, languages, copies, s₄, -, hlanguages, hcopies, hartifacts⟩ := assemble_eq_ok hassemble
  have hs₄ : s.Advances s₄ := hs₃.trans (left_of_ok hlanguages ▸ advances_localize _ _ _ _ _ s₃)
  obtain ⟨icon, issued, hicon, rfl, hgathers⟩ := gathers_collectCopies hcopies
  obtain ⟨before, hbefore⟩ := hs₄.warnings
  rw [hs₄.tree] at hgathers
  rw [hartifacts]
  refine ⟨icon, before ++ issued, copies, hicon, hs₄.tree, ?_,
    get?_documentsOf_addonFile _ _ _ _ _, ?_, (Gathers.nil s.tree before []).append hgathers⟩
  · rw [← List.append_assoc, hbefore]
  · intro name
    have hkeys : languages.keys = settings.tags.eraseDups :=
      (localized_localize (.nil _ _) hlanguages).keys
    have hlanguageFiles : name ∈ languages.keys.map languageFile ↔
        name ∈ settings.tags.map languageFile := by
      simp only [hkeys, List.mem_map, List.mem_eraseDups]
    rw [Artifacts.names, List.mem_append, List.mem_append, mem_keys_documentsOf, hlanguageFiles,
      mem_keys_withPlaceholders htexts, ownNames, List.mem_append, List.mem_append, List.mem_append]

theorem writeExport_written {u : Tree}
    (h : writeExport directory a t = .ok written u) : written = sortedNames a.names := by
  by_cases hname : directory.name = ""
  · rw [writeExport, if_pos hname] at h
    cases h
  · rw [writeExport_eq hname] at h
    obtain ⟨_, _, -, h⟩ := run_bind_eq_ok.mp h
    obtain ⟨_, _, -, h⟩ := run_bind_eq_ok.mp h
    obtain ⟨_, _, -, h⟩ := run_bind_eq_ok.mp h
    cases h
    rfl

/-- What is written are the names of the artifacts, in another order. -/
theorem perm_written {path : Option Path} {u : Tree}
    (h : writeAll settings m a t = .ok (written, path) u) :
    written.Perm a.names := by
  obtain ⟨names, v, hexport, h⟩ := run_bind_eq_ok.mp h
  have hwritten : written = names := by
    split at h
    · obtain ⟨_, _, -, h⟩ := run_bind_eq_ok.mp h
      cases h
      rfl
    · cases h
      rfl
  rw [hwritten, writeExport_written hexport, sortedNames]
  exact List.mergeSort_perm _ _

theorem mem_written {path : Option Path} {u : Tree}
    (h : writeAll settings m a t = .ok (written, path) u) (name : String) :
    name ∈ written ↔ name ∈ a.names :=
  (perm_written h).mem_iff

theorem build_eq_ok {result : Result} (h : build settings compiler s = .ok result s') :
    ∃ a s₁, prepare settings compiler s = .ok ⟨result.manifest, result.registry, a⟩ s₁ ∧
      writeAll settings result.manifest a s₁.tree = .ok (result.written, result.package) s'.tree ∧
      s'.warnings = s₁.warnings := by
  rw [build_eq] at h
  cases hprepare : prepare settings compiler s with
  | error e s₁ =>
    rw [hprepare] at h
    cases h
  | ok made s₁ =>
    rw [hprepare] at h
    dsimp only at h
    cases hwrite : writeAll settings made.manifest made.artifacts s₁.tree with
    | error e t =>
      rw [hwrite] at h
      cases h
    | ok pair t =>
      rw [hwrite] at h
      cases h
      exact ⟨made.artifacts, s₁, rfl, hwrite, rfl⟩

/-- A list of files that holds the names that were written. What else it holds are names of wanted
files that are not there, each with its warning. -/
structure Lists (t : Tree) (wanted : List Wanted) (issued written : List String)
    (files : List Value) : Prop where
  complete : ∀ name ∈ written, .str name ∈ files
  only : ∀ v ∈ files, ∃ name, v = .str name ∧
    (name ∈ written ∨ ∃ w ∈ wanted, w.name = name ∧ Missed t issued w)

/-- The document of the addon file that is handed on for writing lists what is written. -/
theorem lists_of_build {result : Result} (h : build settings compiler s = .ok result s') :
    ∃ a files icon issued,
      writeAll settings result.manifest a s.tree = .ok (result.written, result.package) s'.tree ∧
      a.documents.get? addonFile = some (Document.ofValue (addonValue result.manifest
        result.registry.dispatch settings.tags settings.editorScripts)) ∧
      partAt (addonValue result.manifest result.registry.dispatch settings.tags
        settings.editorScripts) ["file-list"] = some (.list files) ∧
      result.manifest.icon = .str icon ∧
      s'.warnings = s.warnings ++ issued ∧
      Lists s.tree (wantedFiles settings.sourcePath icon result.manifest.fileDependencies) issued
        result.written files := by
  obtain ⟨a, s₁, hprepare, hwrite, hissued⟩ := build_eq_ok h
  obtain ⟨icon, issued, copies, hicon, htree, hwarnings, hdocument, hnames, hgathers⟩ :=
    names_of_prepare hprepare
  have hwritten : ∀ name, name ∈ result.written ↔ name ∈ a.names := mem_written hwrite
  refine ⟨a, _, icon, issued, htree ▸ hwrite, hdocument, partAt_fileList _ _ _ _, hicon,
    hissued.trans hwarnings, fun name hname => ?_, fun v hv => ?_⟩
  · refine (mem_fileList hicon _ _ settings.sourcePath _).mpr ⟨name, rfl, ?_⟩
    rw [hwritten, hnames] at hname
    exact hname.imp_right fun hcopy => (hgathers.asked name hcopy).resolve_left (by simp)
  · obtain ⟨name, rfl, hname⟩ := (mem_fileList hicon _ _ settings.sourcePath _).mp hv
    refine ⟨name, rfl, ?_⟩
    rw [hwritten, hnames]
    rcases hname with hown | ⟨w, hw, rfl⟩
    · exact .inl (.inl hown)
    · exact (hgathers.taken w hw).imp .inr fun hmissed => ⟨w, hw, rfl, hmissed⟩

/-! ### A project without its files -/

/-- A language that is given twice, and an editor script. -/
def sparseSettings : Settings :=
  { smallSettings with
    editorScripts := ["e.py"]
    langDir := none
    languageTags := [some "en", some "en"]
    package := false }

/-- The parts of a configuration that asks for a further file. -/
def sparseConfig : List String :=
  ["\x7b\"addonType\":\"plugin\",\"id\":\"a\",\"name\":\"A\",\"version\":\"1\",",
    "\"fileDependencies\":[\x7b\"filename\":\"x\"\x7d]\x7d"]

/-- A project with nothing but its configuration. -/
def sparseSession : Session where
  tree := .mk [(["w"], .directory), (["w", "src"], .directory),
    (["w", "src", "a.json"], .file (.data (Text.encode (sparseConfig.flatMap String.toList))))]

end Addon.Build
