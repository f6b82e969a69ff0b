import Addon.Proofs.Build.Packing

/-!
# Determinism — an export is a function of the sources

Two builds with the same settings start from files that agree outside the directories that a build
writes to. Stale exports, leftovers of interrupted builds, old archives and remembered lexicons
may differ. Then both builds fail alike, or both leave the same export. What they leave is what
they say they have written.

## The architecture

* **`Separate`**, **`Startable`** — settings and files on which builds do not get in their own way.
* **`isNamed_of_avoids`** — an export that its own path does not go through has a name.
* **`writeAll_twin`**, **`writeAll_eq_ok`** — writing and packing, in two trees and in one.
* **`Delivered`** — the export, the directories beside it and the archive after a build.
* **`export_depends_on_sources`** — the two builds.
* **`straying_paths_matter`** — paths that lead a build into the directories that it writes to.
-/

namespace Addon.Build

open File

/-- The directories that a build writes to: that of the archives and those of the export. -/
def writtenZones (settings : Settings) : List Place :=
  settings.distPath.place :: exportZones settings.exportPath

/-- The directories that a build writes to lie apart, and the paths to them go
through none of them. -/
structure Separate (settings : Settings) : Prop where
  exportWay : settings.exportPath.parent.Avoids (writtenZones settings)
  distWay : settings.distPath.parent.Avoids (writtenZones settings)
  apart : ∀ z ∈ exportZones settings.exportPath, Tree.Apart z settings.distPath.place

/-- Files on which a build can start: steps up in the path of the export go out of directories that
are there, and the directories that are written to are no files. -/
structure Startable (settings : Settings) (t : Tree) : Prop where
  firm : t.Firm settings.exportPath
  free : ∀ z ∈ writtenZones settings, ∀ c, t.get? z ≠ some (.file c)

/-- What was prepared has names that can be written beside each other, and
its archive has a place. -/
structure Writable (settings : Settings) (made : Prepared) (t : Tree) : Prop where
  names : Tidy made.artifacts.names
  slash : '/' ∉ made.manifest.archiveName.toList
  archive : t.get? (settings.distPath.join made.manifest.archiveName).place ≠ some .directory

section Separate

variable {settings : Settings} {directory : Path} {t : Tree}

theorem isNamed_of_avoids (hway : directory.parent.Avoids [directory.place]) :
    Tree.isNamed directory := by
  have hout : ∀ q, directory.parent.Passes q → ¬ directory.place <+: q := fun q hq =>
    hway q hq _ List.mem_cons_self
  have hne : directory.parts ≠ [] := by
    intro hnil
    refine hout [] ⟨[], List.nil_prefix, rfl⟩ ?_
    rw [Path.place, hnil]
    exact List.prefix_rfl
  have hidle := (Path.isPart_name hne).2
  simp only [Tree.isNamed, Bool.and_eq_true, decide_eq_true_eq]
  refine ⟨?_, fun hup => ?_⟩
  · rintro heq
    rw [heq] at hidle
    exact absurd hidle (by decide)
  · -- A last step up leads to a place above the one that it is taken from.
    refine hout _ directory.parent.passes_place ?_
    rw [Path.place_eq_step hne, Path.step, if_pos hup]
    exact List.dropLast_prefix _

theorem Separate.named (h : Separate settings) : Tree.isNamed settings.exportPath :=
  isNamed_of_avoids (h.exportWay.subset (by simp [writtenZones, exportZones]))

theorem Separate.beside (h : Separate settings) :
    Beside settings.exportPath settings.distPath.place where
  staging := h.apart _ (by simp [exportZones])
  backup := h.apart _ (by simp [exportZones])
  export' := h.apart _ (by simp [exportZones])
  way := h.exportWay.subset (by simp [writtenZones])

theorem Separate.archives (h : Separate settings) :
    Archives settings.exportPath settings.distPath :=
  ⟨h.beside, h.distWay⟩

theorem Separate.sited (h : Separate settings) (ht : Startable settings t)
    (hnull : Tree.hasNull settings.exportPath = false) : Sited settings.exportPath t where
  named := h.named
  noNull := hnull
  way := h.exportWay.subset (List.subset_cons_self _ _)
  firm := ht.firm
  free z hz := ht.free z (List.mem_cons_of_mem _ hz)

end Separate

/-! ## Writing -/

section WriteAll

variable {settings : Settings} {m : Manifest} {a : Artifacts} {t y : Tree} {written : List String}

theorem Tidy.way_ne_nil (h : Tidy a.names) (hfirst : StartsPlain a) {name : String}
    (hname : name ∈ a.names) : way name ≠ [] := by
  obtain ⟨first, d, rest, hdocuments, hplain, -⟩ := hfirst
  have hparts := (Path.ofText_of_isPart hplain).2
  have hmem : first ∈ a.names := by simp [Artifacts.names, hdocuments, Fields.keys]
  intro hnil
  have := h.apart name hname first hmem (hnil ▸ List.nil_prefix)
  rw [hnil, way, hparts] at this
  cases this

/-- What a build leaves: its export, nothing of it elsewhere, and its archive. -/
structure Delivered (settings : Settings) (written : List String) (package : Option Path)
    (t : Tree) :
    Prop where
  /-- The files of the export are those that are said to be written. -/
  files : ∀ q, (∃ c, t.get? (settings.exportPath.place ++ q) = some (.file c)) ↔
    ∃ name ∈ written, q = way name
  staging : t.Clear (stagingPath settings.exportPath).place
  backup : t.Clear (backupPath settings.exportPath).place
  packed : package.isSome = settings.package
  /-- The archive has the files of the export as its members, each once. -/
  archive : ∀ path, package = some path → ∃ ms, t.get? path.place = some (.file (.archive ms)) ∧
    (ms.map (·.1)).Nodup ∧ ∀ member, member ∈ ms ↔
      ∃ q c, t.get? (settings.exportPath.place ++ q) = some (.file c) ∧
        member = ("/".intercalate q, c.bytes)

theorem Exported.files {directory : Path} {names : List String} (h : Exported directory names t)
    (q : Place) : (∃ c, t.get? (directory.place ++ q) = some (.file c)) ↔
      ∃ name ∈ names, q = way name := by
  constructor
  · rintro ⟨c, hc⟩
    obtain ⟨name, hname, ⟨hdir, -⟩ | ⟨-, hq⟩⟩ := h.only q _ hc
    · cases hdir
    · exact ⟨name, hname, hq⟩
  · rintro ⟨name, hname, rfl⟩
    exact h.all name hname

/-- An export that was written has no null character in its path. -/
theorem noNull_of_writeAll {package : Option Path} (hsep : Separate settings)
    (hfirst : StartsPlain a) (hrun : writeAll settings m a t = .ok (written, package) y) :
    Tree.hasNull settings.exportPath = false := by
  by_contra hnull
  obtain ⟨e, he⟩ :=
    writeExport_of_null (name_ne_of_isNamed hsep.named) (by simpa using hnull) hfirst
  rw [writeAll_of_writeExport_error (he t)] at hrun
  cases hrun

/-- **Writing and packing** in one tree. -/
theorem writeAll_eq_ok {package : Option Path} (hsep : Separate settings)
    (ht : Startable settings t) (hnames : Tidy a.names) (hslash : '/' ∉ m.archiveName.toList)
    (hfirst : StartsPlain a) (hrun : writeAll settings m a t = .ok (written, package) y) :
    Delivered settings written package y := by
  have hnull := noNull_of_writeAll hsep hfirst hrun
  obtain ⟨names, v, hexport, hrun⟩ := run_bind_eq_ok.mp hrun
  obtain ⟨rfl, hexported, -⟩ :=
    writeExport_eq_ok (hsep.sited ht hnull) hsep.beside hnames hfirst hexport
  have hfiles : ∀ q, (∃ c, v.get? (settings.exportPath.place ++ q) = some (.file c)) ↔
      ∃ name ∈ sortedNames a.names, q = way name := fun q => by
    rw [hexported.files q]
    simp only [sortedNames, List.mem_mergeSort]
  cases hpackage : settings.package with
  | false =>
    rw [hpackage] at hrun
    cases hrun
    exact ⟨hfiles, hexported.staging, hexported.backup, hpackage.symm,
      fun path hpath => by cases hpath⟩
  | true =>
    rw [hpackage] at hrun
    obtain ⟨path, w, hpack, hrun⟩ := run_bind_eq_ok.mp hrun
    cases hrun
    have hways : ∀ q c, v.get? (settings.exportPath.place ++ q) = some (.file c) →
        ∀ part ∈ q, IsPart part := by
      intro q c hc
      obtain ⟨name, -, rfl⟩ := (hfiles q).mp ⟨c, hc⟩
      exact (Path.ofText name).proper
    obtain ⟨rfl, hpacked⟩ := package_eq_ok hsep.archives hslash hways hpack
    have hsame : ∀ q, y.get? (settings.exportPath.place ++ q) =
        v.get? (settings.exportPath.place ++ q) :=
      fun q => hpacked.same _ (by simp [exportZones]) _ (List.prefix_append _ _)
    refine ⟨fun q => by rw [← hfiles q]; simp only [hsame], fun q hq => ?_, fun q hq => ?_,
      hpackage.symm, fun path hpath => ?_⟩
    · rw [hpacked.same _ (by simp [exportZones]) q hq, hexported.staging q hq]
    · rw [hpacked.same _ (by simp [exportZones]) q hq, hexported.backup q hq]
    · cases hpath
      obtain ⟨ms, hms, hnodup, hmembers⟩ := hpacked.archive
      refine ⟨ms, hms, hnodup, fun member => (hmembers member).trans ?_⟩
      simp only [hsame]
      constructor
      · rintro ⟨q, c, -, hc, hm⟩
        exact ⟨q, c, hc, hm⟩
      · rintro ⟨q, c, hc, hm⟩
        -- A file of the export is in its directory, not in its place.
        obtain ⟨name, hname, rfl⟩ := (hexported.files q).mp ⟨c, hc⟩
        exact ⟨_, c, hnames.way_ne_nil hfirst hname, hc, hm⟩

variable {t₁ t₂ : Tree}

/-- **Writing and packing** in two trees. -/
theorem writeAll_twin (hsep : Separate settings) (h₁ : Startable settings t₁)
    (h₂ : Startable settings t₂) (hagree : Tree.AgreeOutside (writtenZones settings) t₁ t₂)
    (hnames : Tidy a.names) (hslash : '/' ∉ m.archiveName.toList) (hfirst : StartsPlain a)
    (hfree : t₁.get? (settings.distPath.join m.archiveName).place ≠ some .directory ∧
      t₂.get? (settings.distPath.join m.archiveName).place ≠ some .directory)
    (hcopies : ∀ copy ∈ a.copies, copy.2.Avoids (writtenZones settings)) :
    Twin (Tree.AgreeOutside [settings.distPath.place]) (writeAll settings m a t₁)
      (writeAll settings m a t₂) := by
  -- a path with a null character fails alike, whatever the files are
  by_cases hnull : Tree.hasNull settings.exportPath = true
  · obtain ⟨e, he⟩ := writeExport_of_null (name_ne_of_isNamed hsep.named) hnull hfirst
    rw [writeAll_of_writeExport_error (he t₁), writeAll_of_writeExport_error (he t₂)]
    exact .error e _ _
  have hsited₁ := hsep.sited h₁ (Bool.eq_false_iff.mpr hnull)
  have hsited₂ := hsep.sited h₂ (Bool.eq_false_iff.mpr hnull)
  refine (writeExport_twin hsited₁ hsited₂ hsep.beside hagree hnames hfirst fun copy hcopy =>
    (hcopies copy hcopy).subset (by simp [writtenZones, exportZones])).bind
    fun names v₁ v₂ hv₁ hv₂ hv => ?_
  obtain ⟨-, -, hframe₁⟩ := writeExport_eq_ok hsited₁ hsep.beside hnames hfirst hv₁
  obtain ⟨-, -, hframe₂⟩ := writeExport_eq_ok hsited₂ hsep.beside hnames hfirst hv₂
  cases settings.package with
  | false => exact .ok _ hv
  | true =>
    have hwithin : settings.distPath.place <+: (settings.distPath.join m.archiveName).place := by
      rw [place_archive hslash]
      exact List.prefix_append _ _
    refine (package_twin hsep.archives hslash hv (fun c => ?_) ?_).bind fun _ _ _ _ _ hy => .ok _ hy
    · rw [hframe₁ _ List.prefix_rfl, hframe₂ _ List.prefix_rfl]
      exact ⟨h₁.free _ List.mem_cons_self c, h₂.free _ List.mem_cons_self c⟩
    · rwa [hframe₁ _ hwithin, hframe₂ _ hwithin]

end WriteAll

/-! ## Two builds -/

theorem copies_avoid {settings : Settings} {compiler : Compiler} {made : Prepared} {s s' : Session}
    (hreads : ReadsOutside settings (writtenZones settings) s.tree)
    (h : prepare settings compiler s = .ok made s') :
    ∀ copy ∈ made.artifacts.copies, copy.2.Avoids (writtenZones settings) := by
  intro copy hcopy
  obtain ⟨name, hname, hpath⟩ := copies_of_prepare h copy hcopy
  obtain ⟨_, _, _, _, _, hconfig, -⟩ := prepare_eq_ok h
  rw [hpath]
  exact hreads.copies _ hconfig name hname

/-- Two builds failed alike, or both left the same export and with it exactly what they say. -/
def SameExport (settings : Settings) :
    EStateM.Result Failure Session Result → EStateM.Result Failure Session Result → Prop
  | .error e₁ _, .error e₂ _ => e₁ = e₂
  | .ok r₁ u₁, .ok r₂ u₂ => r₁ = r₂ ∧
    (∀ q, settings.exportPath.place <+: q → u₁.tree.get? q = u₂.tree.get? q) ∧
    Delivered settings r₁.written r₁.package u₁.tree ∧
      Delivered settings r₂.written r₂.package u₂.tree
  | _, _ => False

/-- **An export is a function of the sources.** Builds that read the same files fail alike or leave
the same export, and with it exactly what they say. Neither what was in the directories that they
write to nor what was remembered makes a difference. -/
theorem export_depends_on_sources (settings : Settings) (compiler : Compiler) (s₁ s₂ : Session)
    (hsep : Separate settings) (h₁ : Startable settings s₁.tree) (h₂ : Startable settings s₂.tree)
    (hagree : Tree.AgreeOutside (writtenZones settings) s₁.tree s₂.tree)
    (hreads : ReadsOutside settings (writtenZones settings) s₁.tree)
    (hwritable : ∀ made s', prepare settings compiler s₁ = .ok made s' →
      Writable settings made s₁.tree ∧ Writable settings made s₂.tree) :
    SameExport settings (build settings compiler s₁) (build settings compiler s₂) := by
  rw [build_eq, build_eq]
  have hprepare := prepare_twin compiler hagree hreads
  cases hp₁ : prepare settings compiler s₁ with
  | error e s₁' =>
    rw [hp₁] at hprepare
    generalize prepare settings compiler s₂ = p₂ at hprepare
    cases hprepare
    rfl
  | ok made s₁' =>
    obtain ⟨hw₁, hw₂⟩ := hwritable made s₁' hp₁
    obtain ⟨d, rest, hdocuments⟩ := documents_of_prepare hp₁
    have hfirst : StartsPlain made.artifacts := ⟨_, d, rest, hdocuments, by decide, by decide⟩
    have hcopies := copies_avoid hreads hp₁
    rw [hp₁] at hprepare
    generalize prepare settings compiler s₂ = p₂ at hprepare
    cases hprepare with
    | @ok _ _ s₂' hs =>
    -- both have prepared the same, and have not yet written
    dsimp only
    rw [hs.tree₁, hs.tree₂]
    have hwrite := writeAll_twin (m := made.manifest) hsep h₁ h₂ hagree hw₁.names hw₁.slash hfirst
      ⟨hw₁.archive, hw₂.archive⟩ hcopies
    have hdelivered : ∀ {t y : Tree} {written package}, Startable settings t →
        writeAll settings made.manifest made.artifacts t = .ok (written, package) y →
        Delivered settings written package y := fun ht =>
      writeAll_eq_ok hsep ht hw₁.names hw₁.slash hfirst
    cases hr₁ : writeAll settings made.manifest made.artifacts s₁.tree with
    | error e y₁ =>
      rw [hr₁] at hwrite
      generalize writeAll settings made.manifest made.artifacts s₂.tree = r₂ at hwrite
      cases hwrite
      rfl
    | ok result y₁ =>
      obtain ⟨written, package⟩ := result
      rw [hr₁] at hwrite
      cases hr₂ : writeAll settings made.manifest made.artifacts s₂.tree with
      | error e y₂ => rw [hr₂] at hwrite; cases hwrite
      | ok result y₂ =>
        rw [hr₂] at hwrite
        cases hwrite with
        | ok _ hy =>
        refine ⟨rfl, fun q hq => hy q fun z hz => ?_, hdelivered h₁ hr₁, hdelivered h₂ hr₂⟩
        rw [List.mem_singleton.mp hz]
        exact hsep.beside.export'.not_within hq

/-! ### Leftovers -/

/-- The small project after an interrupted build: an old export with a stale file, a half-written
staging directory, a forgotten export before and an archive. -/
def staleTree : Tree :=
  .mk <| smallTree.entries ++ [(["w", "export"], .directory),
    (["w", "export", "old.json"], .file (.ofText "{}")), (["w", ".export.staging"], .directory),
    (["w", ".export.staging", "aces.json"], .directory), (["w", ".export.previous"], .directory),
    (["w", "dist"], .directory), (["w", "dist", "a-1.c3addon"], .file (.archive []))]

/-- A lexicon is remembered that is in no file. -/
def staleSession : Session where
  tree := staleTree
  cache := ⟨[(.mk .root ["w", "src", "lang", "en-US.json"], [("A", "B")])]⟩

theorem separate_smallSettings : Separate smallSettings where
  exportWay := by decide +kernel
  distWay := by decide +kernel
  apart := by unfold Tree.Apart; decide +kernel

theorem startable_of_directories {settings : Settings} {t : Tree}
    (hfirm : t.Firm settings.exportPath)
    (hzones : ∀ z ∈ writtenZones settings, t.get? z = none ∨ t.get? z = some .directory) :
    Startable settings t :=
  ⟨hfirm, fun z hz c hc => by rcases hzones z hz with h | h <;> rw [h] at hc <;> cases hc⟩

set_option maxRecDepth 100000 in
theorem readsOutside_smallSettings :
    ReadsOutside smallSettings (writtenZones smallSettings) smallSession.tree where
  config := by decide +kernel
  sources := by intro name hname; cases hname
  scripts := by decide +kernel
  lexicons := by
    intro directory tag hdirectory htag
    obtain rfl := Option.some.inj hdirectory
    rcases htag with htag | rfl
    · obtain rfl : tag = "en-US" := by simpa [smallSettings] using htag
      decide +kernel
    · decide +kernel
  copies := by
    have hload : Gives (Config.load smallSession.tree
        (smallSettings.sourcePath.join smallSettings.addonConfig)) fun m => ∀ name ∈ copiedNames m,
          (smallSettings.sourcePath.join name).Avoids (writtenZones smallSettings) := by
      decide +kernel
    exact fun m hm => hload.of_ok hm

set_option maxRecDepth 100000 in
theorem exists_prepare_small : ∃ made s',
    prepare smallSettings passthrough smallSession = .ok made s' ∧
      Writable smallSettings made smallSession.tree ∧
        Writable smallSettings made staleSession.tree := by
  obtain ⟨made, s', hprepare, hnames, hslash, hfree⟩ : ∃ made s',
      prepare smallSettings passthrough smallSession = .ok made s' ∧ Tidy made.artifacts.names ∧
        '/' ∉ made.manifest.archiveName.toList ∧ ∀ t ∈ [smallSession.tree, staleSession.tree],
          t.get? (smallSettings.distPath.join made.manifest.archiveName).place ≠ some .directory :=
    exists_eq_ok (by decide +kernel)
  exact ⟨made, s', hprepare, ⟨hnames, hslash, hfree _ List.mem_cons_self⟩,
    ⟨hnames, hslash, hfree _ (List.mem_cons_of_mem _ List.mem_cons_self)⟩⟩

/-- A first build and one after leftovers of all kinds. -/
theorem export_depends_on_sources_stale :
    Tree.AgreeOutside (writtenZones smallSettings) smallSession.tree staleSession.tree ∧
      (∃ made s', prepare smallSettings passthrough smallSession = .ok made s') ∧
      SameExport smallSettings (build smallSettings passthrough smallSession)
        (build smallSettings passthrough staleSession) := by
  obtain ⟨made, s', hprepare, hwritable⟩ := exists_prepare_small
  have hagree :
      Tree.AgreeOutside (writtenZones smallSettings) smallSession.tree staleSession.tree := by
    decide +kernel
  have h₁ : Startable smallSettings smallSession.tree := by
    apply startable_of_directories <;> decide +kernel
  have h₂ : Startable smallSettings staleSession.tree := by
    apply startable_of_directories <;> decide +kernel
  have hsep := separate_smallSettings
  have hreads := readsOutside_smallSettings
  -- From here on the settings and the sessions are not looked into, lest the builds be run.
  generalize smallSettings = settings at *
  generalize smallSession = s₁ at *
  generalize staleSession = s₂ at *
  refine ⟨hagree, ⟨made, s', hprepare⟩,
    export_depends_on_sources settings passthrough s₁ s₂ hsep h₁ h₂
    hagree hreads fun made' s'' hprepare' => ?_⟩
  rw [hprepare] at hprepare'
  cases hprepare'
  exact hwritable

/-! ### Settings that lead a build into its own directories -/

/-- The error of a run that failed on a file. -/
def fileError? {σ α : Type} : EStateM.Result Failure σ α → Option FileError
  | .error (.file e) _ => some e
  | _ => none

theorem not_sameExport {settings : Settings} {r₁ r₂ : EStateM.Result Failure Session Result}
    (h : fileError? r₁ ≠ fileError? r₂) : ¬ SameExport settings r₁ r₂ := by
  intro hsame
  cases r₁ with
  | ok a₁ u₁ =>
    cases r₂ with
    | ok a₂ u₂ => exact h rfl
    | error e₂ u₂ => exact hsame
  | error e₁ u₁ =>
    cases r₂ with
    | ok a₂ u₂ => exact hsame
    | error e₂ u₂ =>
      obtain rfl : e₁ = e₂ := hsame
      exact h (by cases e₁ <;> rfl)

/-- A source that lies in the export. -/
def strayingSettings : Settings :=
  { smallSettings with aceSources := [some "../export/x.py"] }

/-- A directory is where that source should be. -/
def strayingSession : Session where
  tree := .mk (smallTree.entries ++
    [(["w", "export"], .directory), (["w", "export", "x.py"], .directory)])

/-- One document, without the others that a build writes. -/
def loneCatalogue : Artifacts where
  documents := [("aces.json", .ok "{}")]

def loneManifest : Manifest :=
  { addonType := .plugin, id := "a", name := "A", version := "1", author := .str "",
    website := .str ""
    documentation := .str "", description := .str "", category := .str "general", icon :=
      .str "icon.svg"
    addonUrl := .null, githubUrl := .null, properties := [], categories :=
      [], fileDependencies := []
    info := .dict [] }

/-- An export and what was left beside it. -/
def leftTree : Tree :=
  .mk [(["w"], .directory), (["w", "export"], .directory),
    (["w", "export", "e"], .file (.ofText "")),
    (["w", ".export.staging"], .directory), (["w", ".export.staging", "old"], .file (.ofText ""))]

set_option maxRecDepth 100000 in
/-- **Paths into the directories that are written to make a difference.** A source in the export is
missing in one build and a directory in the other. An archive in the export is a file of it that was
not written. A step up out of nowhere hides the leftovers of the build before, and so does a path
through the staging directory: the export before is not removed. -/
theorem straying_paths_matter :
    ((∀ z ∈ writtenZones strayingSettings, Tree.Apart z strayingSettings.sourcePath.place) ∧
      Tree.AgreeOutside (writtenZones strayingSettings) smallSession.tree strayingSession.tree ∧
      ¬ SameExport strayingSettings (build strayingSettings passthrough smallSession)
        (build strayingSettings passthrough strayingSession)) ∧
    (∃ result t,
        writeAll { smallSettings with distDir := "export" } loneManifest loneCatalogue leftTree =
        .ok result t ∧ result.1 = ["aces.json"] ∧ (t.get? ["w", "export", "a-1.c3addon"]).isSome) ∧
    (∃ written t, writeExport (.mk .root ["w", "a", "..", "export"]) loneCatalogue leftTree =
      .ok written t ∧ written = ["aces.json"] ∧ (t.get? ["w", "export", "old"]).isSome) ∧
    ∃ written t,
      writeExport (.mk .root ["w", ".export.staging", "..", "export"]) loneCatalogue leftTree =
      .ok written t ∧ (t.get? ["w", ".export.previous", "e"]).isSome := by
  have hmissing : fileError? (build strayingSettings passthrough smallSession) =
      some (.notFound "/w/src/../export/x.py") := by decide +kernel
  have hdirectory : fileError? (build strayingSettings passthrough strayingSession) =
      some .isADirectory := by decide +kernel
  exact ⟨⟨by unfold Tree.Apart; decide +kernel, by decide +kernel,
      not_sameExport (by rw [hmissing, hdirectory]; decide)⟩,
    exists_eq_ok (by decide +kernel), exists_eq_ok (by decide +kernel),
    exists_eq_ok (by decide +kernel)⟩

end Addon.Build
