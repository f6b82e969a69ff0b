import Addon.Proofs.Build.Determinism
import Addon.Proofs.Build.FileList
import Addon.Proofs.Descriptor.Translation

/-!
# Overwriting — when a file of an export is the one that was made for it

The documents, the texts and the copies of an export are kept in three tables and written one after
the other. Within a table no name is repeated, but the tables do not know of each other: a copy can
have the name of the bundle or of a document, and is then written over it. A file that only one name
leads to is what was made for it.

## The architecture

* **`kept_runs`** — a staged file stays as it is while others are written.
* **`content_stageFiles`** — what is in the file of a name that is `Alone`, for
  documents and for texts.
* **`staged_of_writeAll`** — the export has the files that were staged, also after packing.
* **`nodup_names_iff`** — the names that the three tables can have in common.
* **`Made`** — the artifacts of a build, traced back to the files that it read; `made_of_prepare`.
* **`exact_of_build`** — the bundle and the documents in the export are the ones that were made.
* **`lone_names_keep_artifacts`** — when names are repeated, and what is in the
  files of those that are not.
* **`copy_replaces_bundle`** — a further file with the name of the bundle.
* **`fileList_matches_written`** — the file list in the export against the names that were written.
* **`icon_replaces_addonFile`** — an icon with the name of the addon file.
-/

namespace Addon.Build

open File Descriptor Relation

variable {directory : Path} {t u : Tree}
  {others : List String} {text : String} {texts : Fields String} {settings : Settings}
  {m : Manifest}
  {copies result : Fields Path} {s s' : Session} {source : Path}

/-! ## Files that are not written again -/

/-- Of some names one alone leads to the file that it leads to. -/
def Alone (names : List String) (name : String) : Prop :=
  (names.map way).count (way name) = 1

instance (names : List String) (name : String) : Decidable (Alone names name) :=
  inferInstanceAs (Decidable (_ = _))

theorem Alone.perm {names : List String} {name : String} (h : Alone names name)
    (hperm : names.Perm others) : Alone others name := by
  unfold Alone at h ⊢
  rw [← (hperm.map way).count_eq, h]

/-- If a name is in the first of two lists and alone in both, nothing in the
second leads to its file. -/
theorem Alone.left {names : List String} {name : String} (h : Alone (names ++ others) name)
    (hname : name ∈ names) : Alone names name ∧ way name ∉ others.map way := by
  unfold Alone at h ⊢
  rw [List.map_append, List.count_append] at h
  have hpos : 0 < (names.map way).count (way name) :=
    List.count_pos_iff.mpr (List.mem_map_of_mem hname)
  have hzero : (others.map way).count (way name) = 0 := by omega
  exact ⟨by omega, List.count_eq_zero.mp hzero⟩

theorem Alone.right {names : List String} {name : String} (h : Alone (names ++ others) name)
    (hname : name ∈ others) : Alone others name := by
  unfold Alone at h ⊢
  rw [List.map_append, List.count_append] at h
  have hpos : 0 < (others.map way).count (way name) :=
    List.count_pos_iff.mpr (List.mem_map_of_mem hname)
  omega

section Contents

variable {names : List String} {name : String}

/-- **The step.** A change under other names leaves a staged file as it is. -/
theorem kept_writes {more : List String} {c : Content} (hnames : Tidy names) (hmore : more ⊆ names)
    (hstaged : Staged directory names t) (hw : Writes (stagingPath directory) more t u)
    (hother : way name ∉ more.map way)
    (hfile : t.get? ((stagingPath directory).place ++ way name) = some (.file c)) :
    u.get? ((stagingPath directory).place ++ way name) = some (.file c) := by
  cases hw with
  | grow hname hg => exact hg.file_iff.mpr hfile
  | @put other content hname hplace hroom =>
    have hne : (stagingPath directory).place ++ way name ≠
        ((stagingPath directory).join other).place := by
      rw [hnames.place_join (hmore hname)]
      intro heq
      rw [List.append_cancel_left heq] at hother
      exact hother (List.mem_map_of_mem hname)
    rw [Tree.get?_set hroom, if_neg hne, hfile]
  | putInto source content hname hdir hsource hroom =>
    -- No staged name is that of a directory, so that nothing is copied into one.
    have hdirectory := (Tree.isDirectory_eq_true_iff.mp hdir).2
    exact absurd hdirectory (hstaged.not_directory hnames (hmore hname))

/-- **The run.** -/
theorem kept_runs {more : List String} {c : Content} (hnames : Tidy names)
    (hway : directory.parent.Avoids (exportZones directory)) (hmore : more ⊆ names)
    (hstaged : Staged directory names t)
    (hruns : ReflTransGen (Writes (stagingPath directory) more) t u)
    (hother : way name ∉ more.map way)
    (hfile : t.get? ((stagingPath directory).place ++ way name) = some (.file c)) :
    u.get? ((stagingPath directory).place ++ way name) = some (.file c) := by
  have hboth : Staged directory names u ∧
      u.get? ((stagingPath directory).place ++ way name) = some (.file c) := by
    induction hruns with
    | refl => exact ⟨hstaged, hfile⟩
    | tail _ hw ih =>
      exact ⟨ih.1.writes hnames hway (hw.mono hmore), kept_writes hnames hmore ih.1 hw hother ih.2⟩
  exact hboth.2

/-- A text that was written is in its file. -/
theorem content_writeText (hnames : Tidy names) (hname : name ∈ names)
    (h : writeText ((stagingPath directory).join name) text t = .ok () u) :
    u.get? ((stagingPath directory).place ++ way name) = some (.file (.ofText text)) := by
  obtain ⟨v, -, hwrite⟩ := writeText_eq_ok h
  obtain ⟨-, hroom, rfl⟩ := Tree.write_eq_ok hwrite
  rw [Tree.get?_set hroom, hnames.place_join hname, if_pos rfl]

/-- The file of a document that was written ends with a new line. -/
theorem content_writeDocument {d : Document} (hnames : Tidy names) (hname : name ∈ names)
    (h : writeDocument ((stagingPath directory).join name) d t = .ok () u) :
    ∃ c, (∃ text, d = .ok text ∧ c = .ofText (text ++ "\n")) ∧
      u.get? ((stagingPath directory).place ++ way name) = some (.file c) := by
  obtain ⟨text, t₁, hlook, hwrite⟩ := run_bind_eq_ok.mp h
  have hdocument := Attempt.ofWrite_eq_ok.mp (Work.look_eq_ok hlook).1
  exact ⟨_, ⟨text, hdocument, rfl⟩, content_writeText hnames hname hwrite⟩

/-- **The table.** By induction: the file of a name that is alone is not written over by those
behind it, and a name that is alone among all is alone among the rest. -/
theorem content_writeEach {α : Type} {write : Path → α → Work Unit} {items : Fields α} {item : α}
    {P : Content → Prop} (hwrite : Stages write) (hnames : Tidy names)
    (hway : directory.parent.Avoids (exportZones directory)) (hkeys : items.keys ⊆ names)
    (hitem : ∀ {t u}, write ((stagingPath directory).join name) item t = .ok () u →
      ∃ c, P c ∧ u.get? ((stagingPath directory).place ++ way name) = some (.file c))
    (hstaged : Staged directory names t)
    (h : writeEach write (stagingPath directory) items t = .ok () u)
    (hmem : (name, item) ∈ items) (halone : Alone items.keys name) :
    ∃ c, P c ∧ u.get? ((stagingPath directory).place ++ way name) = some (.file c) := by
  induction items generalizing t with
  | nil => cases hmem
  | cons first rest ih =>
    obtain ⟨hfirst, hrest⟩ := List.cons_subset.mp hkeys
    obtain ⟨_, t₁, hrun, hothers⟩ := run_bind_eq_ok.mp h
    have hstaged₁ : Staged directory names t₁ :=
      left_of_ok hrun ▸ hstaged.runs hnames hway (hwrite hfirst first.2 t)
    have halone : Alone ([first.1] ++ Fields.keys rest) name := halone
    rcases List.mem_cons.mp hmem with rfl | hmem
    · have hruns :=
        left_of_ok hothers ▸ hwrite.each (stagingPath directory) rest (List.Subset.refl _) t₁
      have hother := (halone.left List.mem_cons_self).2
      obtain ⟨c, hc, hfile⟩ := hitem hrun
      exact ⟨c, hc, kept_runs hnames hway hrest hstaged₁ hruns hother hfile⟩
    · exact ih hrest hstaged₁ hothers hmem (halone.right (List.mem_map_of_mem hmem))

end Contents

/-- **Staging.** What is in the file of a name that is alone among those of all three tables. -/
theorem content_stageFiles {a : Artifacts} {name : String} (hnames : Tidy a.names)
    (hway : directory.parent.Avoids (exportZones directory))
    (hclear : t.Clear (stagingPath directory).place)
    (h : stageFiles directory a t = .ok () u) (halone : Alone a.names name) :
    (∀ d, (name, d) ∈ a.documents → ∃ text, d = .ok text ∧
      u.get? ((stagingPath directory).place ++ way name) = some (.file (.ofText (text ++ "\n")))) ∧
    ∀ text, (name, text) ∈ a.texts →
      u.get? ((stagingPath directory).place ++ way name) = some (.file (.ofText text)) := by
  have hstaged : Staged directory a.names t := .of_clear hclear
  obtain ⟨_, t₁, h₁, h⟩ := run_bind_eq_ok.mp h
  obtain ⟨_, t₂, h₂, h₃⟩ := run_bind_eq_ok.mp h
  have hruns₁ :=
    left_of_ok h₁ ▸ stages_writeDocument.each (stagingPath directory) _ a.documents_subset t
  have hruns₂ :=
    left_of_ok h₂ ▸ stages_writeText.each (stagingPath directory) _ (List.Subset.refl _) t₁
  have hruns₃ :=
    left_of_ok h₃ ▸ stages_copyFile.each (stagingPath directory) _ (List.Subset.refl _) t₂
  have hstaged₁ : Staged directory a.names t₁ := hstaged.runs hnames hway hruns₁
  have hstaged₂ : Staged directory a.names t₂ := hstaged₁.runs hnames hway
    (left_of_ok h₂ ▸ stages_writeText.each (stagingPath directory) _ a.texts_subset t₁)
  have halone : Alone (a.documents.keys ++ a.texts.keys ++ a.copies.keys) name := halone
  refine ⟨fun d hd => ?_, fun text htext => ?_⟩
  · have hkey : name ∈ a.documents.keys := List.mem_map_of_mem hd
    obtain ⟨hfront, hcopy⟩ := halone.left (List.mem_append_left _ hkey)
    obtain ⟨hlone, hother⟩ := hfront.left hkey
    obtain ⟨_, ⟨text, hd, rfl⟩, hfile⟩ := content_writeEach stages_writeDocument hnames hway
      a.documents_subset (content_writeDocument hnames (a.documents_subset hkey)) hstaged
      h₁ hd hlone
    have hfile₂ := kept_runs hnames hway a.texts_subset hstaged₁ hruns₂ hother hfile
    exact ⟨text, hd, kept_runs hnames hway a.copies_subset hstaged₂ hruns₃ hcopy hfile₂⟩
  · have hkey : name ∈ a.texts.keys := List.mem_map_of_mem htext
    obtain ⟨hfront, hcopy⟩ := halone.left (List.mem_append_right _ hkey)
    obtain ⟨_, rfl, hfile⟩ :=
      content_writeEach (P := (· = .ofText text)) stages_writeText hnames hway
      a.texts_subset (fun h => ⟨_, rfl, content_writeText hnames (a.texts_subset hkey) h⟩)
      hstaged₁ h₂ htext (hfront.right hkey)
    exact kept_runs hnames hway a.copies_subset hstaged₂ hruns₃ hcopy hfile

/-! ## From staging to the export -/

/-- The export has what was staged, in a staging directory that was empty before. -/
theorem staged_of_writeAll {a : Artifacts} {written : List String}
    {package : Option Path} {y : Tree} (hsep : Separate settings) (ht : Startable settings t)
    (hnames : Tidy a.names) (hslash : '/' ∉ m.archiveName.toList) (hfirst : StartsPlain a)
    (hrun : writeAll settings m a t = .ok (written, package) y) :
    ∃ t₁ t₂, t₁.Clear (stagingPath settings.exportPath).place ∧
      stageFiles settings.exportPath a t₁ = .ok () t₂ ∧
      ∀ q, y.get? (settings.exportPath.place ++ q) =
        t₂.get? ((stagingPath settings.exportPath).place ++ q) := by
  have hnull := noNull_of_writeAll hsep hfirst hrun
  obtain ⟨names, v, hexport, hrun⟩ := run_bind_eq_ok.mp hrun
  obtain ⟨-, t₁, t₂, -, hempty, hstage, hswapped⟩ :=
    writeExport_stages (hsep.sited ht hnull) hnames hfirst hexport
  refine ⟨t₁, t₂, hempty, hstage, fun q => ?_⟩
  have hget : v.get? (settings.exportPath.place ++ q) =
      t₂.get? ((stagingPath settings.exportPath).place ++ q) := by
    rw [hswapped, if_pos (List.prefix_append _ _), List.drop_left]
  rw [← hget]
  cases hpackage : settings.package with
  | false =>
    rw [hpackage] at hrun
    cases hrun
    rfl
  | true =>
    rw [hpackage] at hrun
    obtain ⟨path, w, hpack, hrun⟩ := run_bind_eq_ok.mp hrun
    cases hrun
    exact package_same hsep.archives hslash hpack (by simp [exportZones]) (List.prefix_append _ _)

/-! ## Names that tables have in common -/

/-- The names of the documents. -/
def documentNames (tags : List String) : List String :=
  [catalogueFile, addonFile] ++ tags.map languageFile

/-- No document is in the folder of the runtime. -/
theorem not_mem_runtimeFiles {tags : List String} {name : String} (h : name ∈ documentNames tags)
    (type : AddonType) : name ∉ runtimeFiles type := by
  have hdocument : name.toList.head? ≠ some 'c' := by
    rcases List.mem_append.mp h with hfixed | hlanguage
    · have : ∀ fixed ∈ [catalogueFile, addonFile], fixed.toList.head? ≠ some 'c' := by decide
      exact this name hfixed
    · obtain ⟨tag, -, rfl⟩ := List.mem_map.mp hlanguage
      simp [languageFile]
  have hruntime : ∀ file ∈ runtimeFiles type, file.toList.head? = some 'c' := by
    cases type <;> decide
  exact fun hmem => hdocument (hruntime name hmem)

theorem nodup_addDefault (h : texts.keys.Nodup) (files : List String) :
    (files.foldl addDefault texts).keys.Nodup := by
  induction files generalizing texts with
  | nil => exact h
  | cons file rest ih =>
    refine ih ?_
    unfold addDefault
    split
    · exact h
    · exact Fields.nodup_keys_insert file "" h

/-- A text that is there is not replaced by an empty one. -/
theorem get?_addDefault {name : String} (h : texts.get? name = some text)
    (files : List String) : (files.foldl addDefault texts).get? name = some text := by
  induction files generalizing texts with
  | nil => exact h
  | cons file rest ih =>
    refine ih ?_
    unfold addDefault
    split
    · exact h
    · next hmissing =>
      have hne : file ≠ name := by
        rintro rfl
        have hmem := List.mem_map_of_mem (f := (·.1)) (Fields.mem_of_get? h)
        exact hmissing (by simpa [Fields.contains] using hmem)
      rw [Fields.get?_insert, if_neg hne, h]

/-- The copies are the wanted files that are there, under their names. -/
structure Takes (t : Tree) (wanted : List Wanted) (copies result : Fields Path) : Prop where
  keys : ∀ name, name ∈ result.keys ↔
    name ∈ copies.keys ∨ ∃ w ∈ wanted, w.name = name ∧ t.isFile w.path = .ok true
  nodup : copies.keys.Nodup → result.keys.Nodup

theorem Takes.nil (t : Tree) (copies : Fields Path) : Takes t [] copies copies :=
  ⟨by simp, id⟩

theorem Takes.append {wanted more : List Wanted} {mid : Fields Path}
    (h : Takes t wanted copies mid) (h' : Takes t more mid result) :
    Takes t (wanted ++ more) copies result where
  keys name := by
    rw [h'.keys, h.keys, or_assoc]
    simp only [List.mem_append, or_and_right, exists_or]
  nodup hnodup := h'.nodup (h.nodup hnodup)

/-- **The step.** -/
theorem takes_addCopy {w : Wanted} (h : addCopy copies w.name w.path w.warning s = .ok result s') :
    s'.tree = s.tree ∧ Takes s.tree [w] copies result := by
  rcases addCopy_eq_ok h with ⟨rfl, rfl, hthere⟩ | ⟨rfl, rfl, habsent⟩
  · refine ⟨rfl, fun name => ?_, Fields.nodup_keys_insert _ _⟩
    rw [Fields.mem_keys_insert]
    simp [hthere, eq_comm, or_comm]
  · refine ⟨rfl, fun name => ?_, id⟩
    simp [habsent]

/-- **The run** over the further files. -/
theorem takes_addDependencies {files : List FileDependency}
    (h : addDependencies source copies files s = .ok result s') :
    Takes s.tree (files.map (wantedDependency source)) copies result := by
  induction files generalizing copies s with
  | nil =>
    cases h
    exact .nil _ _
  | cons d rest ih =>
    obtain ⟨mid, s₁, hadd, h⟩ := run_bind_eq_ok.mp h
    obtain ⟨htree, hfirst⟩ := takes_addCopy (w := wantedDependency source d) hadd
    have hrest := ih h
    rw [htree] at hrest
    exact hfirst.append hrest

theorem takes_collectCopies (h : collectCopies m source s = .ok result s') :
    ∃ icon, m.icon = .str icon ∧
    Takes s.tree (wantedFiles source icon m.fileDependencies) [] result := by
  obtain ⟨icon, s₁, hlook, hcopies⟩ := run_bind_eq_ok.mp h
  obtain ⟨hicon, rfl⟩ := Step.look_eq_ok.mp hlook
  obtain ⟨copies, s₂, hadd, hdependencies⟩ := run_bind_eq_ok.mp hcopies
  obtain ⟨htree, hfirst⟩ := takes_addCopy (w := wantedIcon source icon) hadd
  have hrest := takes_addDependencies hdependencies
  rw [htree] at hrest
  exact ⟨icon, iconName_eq_ok hicon, hfirst.append hrest⟩

/-- **Repeated names.** Within the tables there are none. Between them there is one exactly if an
editor script has the name of a document, or a file that is copied has the name of anything else. -/
theorem nodup_names_iff {compiler : Compiler} {made : Prepared}
    (h : prepare settings compiler s = .ok made s') :
    ∃ icon, made.manifest.icon = .str icon ∧ (made.artifacts.names.Nodup ↔
      (∀ script ∈ settings.editorScripts, script ∉ documentNames settings.tags) ∧
      ∀ w ∈ wantedFiles settings.sourcePath icon made.manifest.fileDependencies,
        s.tree.isFile w.path = .ok true →
          w.name ∉ ownNames made.manifest settings.tags settings.editorScripts) := by
  obtain ⟨source, texts, s₁, s₂, s₃, -, htexts, hs₃, hassemble⟩ := prepare_eq_ok h
  obtain ⟨c, languages, copies, s₄, -, hlanguages, hcopies, hartifacts⟩ := assemble_eq_ok hassemble
  have hs₄ : s.Advances s₄ := hs₃.trans (left_of_ok hlanguages ▸ advances_localize _ _ _ _ _ s₃)
  obtain ⟨icon, hicon, htakes⟩ := takes_collectCopies hcopies
  rw [hs₄.tree] at htakes
  -- The names of the three tables, each of which repeats none.
  have hdocument : ∀ name, name ∈ made.artifacts.documents.keys ↔
      name ∈ documentNames settings.tags := by
    intro name
    have hkeys : languages.keys = settings.tags.eraseDups :=
      (localized_localize (.nil _ _) hlanguages).keys
    rw [hartifacts, mem_keys_documentsOf, documentNames, List.mem_append, hkeys]
    simp only [List.mem_map, List.mem_eraseDups]
  have htext : ∀ name, name ∈ made.artifacts.texts.keys ↔
      name ∈ runtimeFiles made.manifest.addonType ∨ name ∈ settings.editorScripts := by
    intro name
    rw [hartifacts, mem_keys_withPlaceholders htexts]
  have hcopy : ∀ name, name ∈ made.artifacts.copies.keys ↔
      ∃ w ∈ wantedFiles settings.sourcePath icon made.manifest.fileDependencies,
        w.name = name ∧ s.tree.isFile w.path = .ok true := by
    intro name
    rw [hartifacts, htakes.keys]
    simp
  have hdocuments : made.artifacts.documents.keys.Nodup := by
    rw [hartifacts]
    exact Fields.nodup_keys_merge (by simp [catalogueFile, addonFile])
  have hnodup : made.artifacts.texts.keys.Nodup := by
    obtain ⟨text, _, -, hscripts⟩ := run_bind_eq_ok.mp htexts
    obtain ⟨added, -, rfl⟩ := compileScripts_eq_merge hscripts
    rw [hartifacts]
    exact nodup_addDefault (Fields.nodup_keys_merge (by simp)) _
  have hcopied : made.artifacts.copies.keys.Nodup := by
    rw [hartifacts]
    exact htakes.nodup List.nodup_nil
  refine ⟨icon, hicon, ?_⟩
  rw [Artifacts.names, List.nodup_append, List.nodup_append]
  constructor
  · rintro ⟨⟨-, -, hfront⟩, -, hback⟩
    refine ⟨fun script hscript hdoc => ?_, fun w hw hthere hown => ?_⟩
    · exact hfront script ((hdocument script).mpr hdoc) script
        ((htext script).mpr (.inr hscript)) rfl
    · refine hback w.name ?_ w.name ((hcopy w.name).mpr ⟨w, hw, rfl, hthere⟩) rfl
      rw [List.mem_append, hdocument, htext]
      exact (List.mem_append.mp hown).imp_right List.mem_append.mp
  · rintro ⟨hscripts, hwanted⟩
    refine ⟨⟨hdocuments, hnodup, fun name hdoc other hother heq => ?_⟩, hcopied,
      fun name hname other hother heq => ?_⟩
    · subst heq
      have hdoc := (hdocument name).mp hdoc
      rcases (htext name).mp hother with hruntime | hscript
      · exact not_mem_runtimeFiles hdoc _ hruntime
      · exact hscripts name hscript hdoc
    · subst heq
      obtain ⟨w, hw, rfl, hthere⟩ := (hcopy name).mp hother
      refine hwanted w hw hthere ?_
      rw [List.mem_append, hdocument, htext] at hname
      exact List.mem_append.mpr (hname.imp_right List.mem_append.mpr)

/-! ## Where artifacts come from -/

/-- The sources of an addon, each with its text in the files. -/
structure Sources (settings : Settings) (t : Tree) (sources : List (String × String)) : Prop where
  names : settings.aceSources = sources.map fun source => some source.1
  texts : ∀ source ∈ sources, t.readText (settings.sourcePath.join source.1) = .ok source.2.toList

theorem readSources_eq_ok {names : List (Option String)} {sources : List (String × String)}
    (h : readSources source names s = .ok sources s') :
    names = sources.map (fun p => some p.1) ∧
      ∀ p ∈ sources, s.tree.readText (source.join p.1) = .ok p.2.toList := by
  induction names generalizing sources s with
  | nil =>
    cases h
    simp
  | cons name rest ih =>
    cases name with
    | none => cases h
    | some name =>
      obtain ⟨text, s₁, hread, h⟩ := run_bind_eq_ok.mp h
      obtain ⟨others, s₂, hothers, h⟩ := run_bind_eq_ok.mp h
      cases h
      obtain ⟨cs, s₃, hlook, hpure⟩ := run_bind_eq_ok.mp hread
      obtain ⟨hcs, rfl⟩ := Step.look_eq_ok.mp hlook
      cases hpure
      obtain ⟨hnames, htexts⟩ := ih hothers
      refine ⟨by rw [hnames]; rfl, List.forall_mem_cons.mpr ⟨?_, htexts⟩⟩
      rw [hcs, String.toList_ofList]

/-- The context that sources are extracted into. -/
def extracted (sources : List (String × String)) : Annotated.Context :=
  (Annotated.Context.extractAll {} (sources.map Prod.swap)).1

theorem extractSources_eq_ok {context last : Annotated.Context} {sources : List (String × String)}
    (h : extractSources context sources s = .ok last s') :
    last = (context.extractAll (sources.map Prod.swap)).1 := by
  induction sources generalizing context s with
  | nil =>
    cases h
    rfl
  | cons source rest ih =>
    obtain ⟨_, _, -, h⟩ := run_bind_eq_ok.mp h
    obtain ⟨_, _, -, h⟩ := run_bind_eq_ok.mp h
    exact ih h

/-- The artifacts of a build that others could be written over, and how they
are made of the files. -/
structure Made (settings : Settings) (compiler : Compiler) (t : Tree) (m : Manifest)
    (r : Ace.Registry) (a : Artifacts) : Prop where
  bundle : bundleFile m.addonType ∉ settings.editorScripts →
    ∃ sources text, Sources settings t sources ∧
    r = (extracted sources).registry ∧
    compiler ⟨bundleFile m.addonType, settings.minify⟩ (Build.bundle (extracted sources).stripped) =
      .ok text ∧
    (bundleFile m.addonType, text) ∈ a.texts
  catalogue : ∃ c, Descriptor.catalogue r = .ok c ∧
    (catalogueFile, Document.ofValue c.toValue) ∈ a.documents
  addon : (addonFile,
    Document.ofValue (addonValue m r.dispatch settings.tags settings.editorScripts)) ∈
    a.documents
  languages : ∀ tag ∈ settings.tags, ∃ table l, storedTable t settings.langPath? tag = .ok table ∧
    localization m r tag table = .ok l ∧ (languageFile tag, localizationDocument l) ∈ a.documents

theorem languageFile_injective : Function.Injective languageFile := by
  intro tag other h
  rw [← String.toList_inj] at h ⊢
  simpa [languageFile] using h

theorem nodup_localize {r : Ace.Registry} {lexicons : Option Path} {tags : List (Option String)}
    {done docs : Fields Localization} (h : localize m r lexicons done tags s = .ok docs s')
    (hdone : done.keys.Nodup) : docs.keys.Nodup := by
  induction tags generalizing done s with
  | nil =>
    cases h
    exact hdone
  | cons tag rest ih =>
    cases tag with
    | none =>
      obtain ⟨_, _, -, hthrow⟩ := run_bind_eq_ok.mp h
      cases hthrow
    | some tag =>
      obtain ⟨l, s₁, -, hrest⟩ := run_bind_eq_ok.mp h
      exact ih hrest (Fields.nodup_keys_insert tag l hdone)

/-- The language file of a tag is the document under its name: tags with one file are the same. -/
theorem mem_documentsOf_language {r : Ace.Registry} {c : Catalogue}
    {languages : Fields Localization} {tag : String} {l : Localization}
    (hnodup : languages.keys.Nodup) (h : languages.get? tag = some l) :
    (languageFile tag, localizationDocument l) ∈ documentsOf m r settings c languages := by
  have hkeys : Fields.keys (languages.map fun l => (languageFile l.1, localizationDocument l.2)) =
      languages.keys.map languageFile := by
    simp [Fields.keys]
  have hmem : (languageFile tag, localizationDocument l) ∈
      languages.map fun l => (languageFile l.1, localizationDocument l.2) :=
    List.mem_map.mpr ⟨(tag, l), Fields.mem_of_get? h, rfl⟩
  refine Fields.mem_of_get? ?_
  rw [documentsOf]
  exact Fields.get?_merge_of_mem (hkeys ▸ hnodup.map languageFile_injective) hmem

theorem made_of_prepare {compiler : Compiler} {made : Prepared}
    (h : prepare settings compiler s = .ok made s') :
    Made settings compiler s.tree made.manifest made.registry made.artifacts := by
  obtain ⟨sources, context, texts, s₁, s₂, s₃, s₄, s₅, s₆, s₇, -, hs₁, hsources, hcontext,
    hregistry, htexts, hs₇, hcache, hassemble⟩ := prepare_trace h
  obtain ⟨c, languages, copies, s₈, hc, hlanguages, -, hartifacts⟩ := assemble_eq_ok hassemble
  obtain rfl := extractSources_eq_ok hcontext
  rw [hartifacts]
  refine ⟨fun hbundle => ?_, ⟨c, hc, ?_⟩, ?_, fun tag htag => ?_⟩
  · obtain ⟨hnames, hread⟩ := readSources_eq_ok hsources
    rw [hs₁.tree] at hread
    obtain ⟨text, _, hcompile, hscripts⟩ := run_bind_eq_ok.mp htexts
    obtain ⟨_, _, -, hlook⟩ := run_bind_eq_ok.mp hcompile
    obtain ⟨added, hkeys, rfl⟩ := compileScripts_eq_merge hscripts
    refine ⟨sources, text, ⟨hnames, hread⟩, hregistry, (Step.look_eq_ok.mp hlook).1,
      Fields.mem_of_get? ?_⟩
    refine get?_addDefault ?_ _
    rw [Fields.get?_merge_of_not_mem (hkeys ▸ hbundle), Fields.get?_cons, if_pos rfl]
  · refine Fields.mem_of_get? ?_
    rw [documentsOf, Fields.get?_merge_of_not_mem]
    · rfl
    · intro hmem
      -- languages are in a folder of their own
      obtain ⟨l, -, heq⟩ : ∃ l ∈ languages, languageFile l.1 = catalogueFile := by
        simpa [Fields.keys] using hmem
      have := congrArg (fun text => text.toList.head?) heq
      simp [languageFile, catalogueFile] at this
  · exact Fields.mem_of_get? (get?_documentsOf_addonFile _ _ _ _ _)
  · have hfaithful : s₇.cache.Faithful s₇.tree := by
      rw [hcache]
      exact fun _ _ h => by cases h
    -- nothing was remembered, so the lexicon is the one in the files
    have hmentioned : some tag ∈ settings.languageTags := by
      simpa [Settings.tags] using htag
    obtain ⟨table, l, htable, hget, hl⟩ := (get?_localize hfaithful hlanguages tag).1 hmentioned
    rw [hs₇.tree] at htable
    exact ⟨table, l, htable, hl,
      mem_documentsOf_language (nodup_localize hlanguages List.nodup_nil) hget⟩

/-! ## Builds -/

/-- A file of the export has a text. -/
def HasText (settings : Settings) (t : Tree) (name text : String) : Prop :=
  t.get? (settings.exportPath.place ++ way name) = some (.file (.ofText text))

/-- The bundle and the documents are in the export as they were made, each of them unless another
name leads to its file. -/
structure Exact (settings : Settings) (compiler : Compiler) (t : Tree) (result : Result)
    (u : Tree) : Prop where
  bundle : bundleFile result.manifest.addonType ∉ settings.editorScripts →
    Alone result.written (bundleFile result.manifest.addonType) → ∃ sources text,
      Sources settings t sources ∧ result.registry = (extracted sources).registry ∧
      compiler ⟨bundleFile result.manifest.addonType, settings.minify⟩
        (Build.bundle (extracted sources).stripped) = .ok text ∧
      HasText settings u (bundleFile result.manifest.addonType) text
  catalogue : Alone result.written catalogueFile →
    ∃ c text, Descriptor.catalogue result.registry = .ok c ∧
    Document.ofValue c.toValue = .ok text ∧ HasText settings u catalogueFile (text ++ "\n")
  addon : Alone result.written addonFile → ∃ text,
    Document.ofValue (addonValue result.manifest result.registry.dispatch settings.tags
      settings.editorScripts) = .ok text ∧ HasText settings u addonFile (text ++ "\n")
  languages : ∀ tag ∈ settings.tags, Alone result.written (languageFile tag) → ∃ table l text,
    storedTable t settings.langPath? tag = .ok table ∧
    localization result.manifest result.registry tag table = .ok l ∧
      localizationDocument l = .ok text ∧
    HasText settings u (languageFile tag) (text ++ "\n")

theorem Tidy.perm {names : List String} (h : Tidy names) (hperm : names.Perm others) :
    Tidy others where
  here name hname := h.here name (hperm.mem_iff.mpr hname)
  down name hname := h.down name (hperm.mem_iff.mpr hname)
  apart a ha b hb := h.apart a (hperm.mem_iff.mpr ha) b (hperm.mem_iff.mpr hb)

/-- A build of tidy names whose directories lie apart leaves the bundle and
the documents as made. -/
theorem exact_of_build {compiler : Compiler} {result : Result}
    (h : build settings compiler s = .ok result s') (hsep : Separate settings)
    (ht : Startable settings s.tree) (hslash : '/' ∉ result.manifest.archiveName.toList)
    (htidy : Tidy result.written) : Exact settings compiler s.tree result s'.tree := by
  obtain ⟨a, s₁, hprepare, hwrite, -⟩ := build_eq_ok h
  have hperm := perm_written hwrite
  have htree : s₁.tree = s.tree := left_of_ok hprepare ▸ (quiet_prepare settings compiler s).1
  rw [htree] at hwrite
  have hmade := made_of_prepare hprepare
  have hnames : Tidy a.names := htidy.perm hperm
  obtain ⟨d, rest, hdocuments⟩ := documents_of_prepare hprepare
  have hfirst : StartsPlain a := ⟨_, d, rest, hdocuments, by decide, by decide⟩
  obtain ⟨t₁, t₂, hclear, hstage, hget⟩ :=
    staged_of_writeAll hsep ht hnames hslash hfirst hwrite
  have hway : settings.exportPath.parent.Avoids (exportZones settings.exportPath) :=
    hsep.exportWay.subset (List.subset_cons_self _ _)
  -- What staging put into the file of a lone name is in the export.
  have hdocument : ∀ name d, Alone result.written name → (name, d) ∈ a.documents →
      ∃ text, d = .ok text ∧ HasText settings s'.tree name (text ++ "\n") := by
    intro name d halone hd
    obtain ⟨text, htext, hfile⟩ :=
      (content_stageFiles hnames hway hclear hstage (halone.perm hperm)).1 d hd
    exact ⟨text, htext, (hget _).trans hfile⟩
  have htext : ∀ name text, Alone result.written name → (name, text) ∈ a.texts →
      HasText settings s'.tree name text := by
    intro name text halone hmem
    have hfile := (content_stageFiles hnames hway hclear hstage (halone.perm hperm)).2 text hmem
    exact (hget _).trans hfile
  refine ⟨fun hbundle halone => ?_, fun halone => ?_, fun halone => ?_, fun tag htag halone => ?_⟩
  · obtain ⟨sources, text, hsources, hregistry, hcompiled, hmem⟩ := hmade.bundle hbundle
    exact ⟨sources, text, hsources, hregistry, hcompiled, htext _ _ halone hmem⟩
  · obtain ⟨c, hc, hmem⟩ := hmade.catalogue
    obtain ⟨text, hrendered, hfile⟩ := hdocument _ _ halone hmem
    exact ⟨c, text, hc, hrendered, hfile⟩
  · exact hdocument _ _ halone hmade.addon
  · obtain ⟨table, l, htable, hl, hmem⟩ := hmade.languages tag htag
    obtain ⟨text, hrendered, hfile⟩ := hdocument _ _ halone hmem
    exact ⟨table, l, text, htable, hl, hrendered, hfile⟩

/-- **Names that are alone keep their artifacts.** A build that is done has written no name twice
exactly if no editor script has the name of a document, and no file that was copied has the name of
anything else. The bundle, the catalogue, the addon file and the language files are in the export as
they were made, each of them if no other name leads to its file; here the directories of the build
lie apart and the names lead down, none through another. -/
theorem lone_names_keep_artifacts {settings : Settings} {compiler : Compiler} {s s' : Session}
    {result : Result} (h : build settings compiler s = .ok result s') :
    (∃ icon, result.manifest.icon = .str icon ∧ (result.written.Nodup ↔
      (∀ script ∈ settings.editorScripts, script ∉ documentNames settings.tags) ∧
      ∀ w ∈ wantedFiles settings.sourcePath icon result.manifest.fileDependencies,
        s.tree.isFile w.path = .ok true →
          w.name ∉ ownNames result.manifest settings.tags settings.editorScripts)) ∧
    (Separate settings → Startable settings s.tree → '/' ∉ result.manifest.archiveName.toList →
      Tidy result.written → Exact settings compiler s.tree result s'.tree) := by
  obtain ⟨a, s₁, hprepare, hwrite, -⟩ := build_eq_ok h
  obtain ⟨icon, hicon, hnodup⟩ := nodup_names_iff hprepare
  exact ⟨⟨icon, hicon, (perm_written hwrite).nodup_iff.trans hnodup⟩, exact_of_build h⟩

/-! ### A further file with the name of the bundle -/

/-- The parts of a configuration that asks for a file with the name of the bundle. -/
def replacingConfig : List String :=
  ["\x7b\"addonType\":\"plugin\",\"id\":\"a\",\"name\":\"A\",\"version\":\"1\",",
    "\"fileDependencies\":[\x7b\"filename\":\"plugin.py\"\x7d]\x7d"]

/-- A project with that configuration and that file. -/
def replacingSession : Session where
  tree := .mk [(["w"], .directory), (["w", "src"], .directory),
    (["w", "src", "a.json"], .file (.data (Text.encode (replacingConfig.flatMap String.toList)))),
    (["w", "src", "plugin.py"], .file (.ofText "own"))]

set_option maxRecDepth 100000 in
/-- The bundle of both projects is empty. In the one without files it is alone and stays so, in
the other one it is not. -/
theorem prepare_replacing : ∀ project ∈ [(sparseSession, ""), (replacingSession, "own")],
    Achieves (prepare sparseSettings passthrough project.1) fun made s₁ =>
      GetsThrough sparseSettings made s₁.tree ∧ made.manifest.addonType = .plugin ∧
      '/' ∉ made.manifest.archiveName.toList ∧ Tidy made.artifacts.names ∧
      (made.artifacts.names.Nodup ↔ project.2 = "") ∧
      (Alone made.artifacts.names (bundleFile .plugin) ↔ project.2 = "") ∧
      Alone made.artifacts.names (languageFile "en") ∧
      made.artifacts.texts.get? (bundleFile .plugin) = some "" ∧
      Achieves (placeExport sparseSettings.exportPath made.artifacts s₁.tree) fun _ t =>
        t.get? (sparseSettings.exportPath.place ++ way (bundleFile .plugin)) =
          some (.file (.ofText project.2)) := by
  decide +kernel

/-- The directories are those of the small project. -/
theorem separate_sparseSettings : Separate sparseSettings where
  exportWay := separate_smallSettings.exportWay
  distWay := separate_smallSettings.distWay
  apart := separate_smallSettings.apart

/-- The bundle and a language of the project without its files are in the
export as they were made. -/
theorem lone_names_keep_artifacts_sparse : ∃ result s' sources bundled table l text,
    build sparseSettings passthrough sparseSession = .ok result s' ∧
    Sources sparseSettings sparseSession.tree sources ∧
    passthrough ⟨bundleFile .plugin, sparseSettings.minify⟩ (bundle (extracted sources).stripped) =
      .ok bundled ∧
    HasText sparseSettings s'.tree (bundleFile .plugin) bundled ∧
    localization result.manifest result.registry "en" table = .ok l ∧
    localizationDocument l = .ok text ∧
    HasText sparseSettings s'.tree (languageFile "en") (text ++ "\n") := by
  obtain ⟨made, s₁, hprepare, hthrough, htype, hslash, hnames, -, hbundle, hlanguage, -, -⟩ :=
    prepare_replacing (sparseSession, "") List.mem_cons_self
  obtain ⟨_, s', hbuild, hwrite, -⟩ := placed_of_getsThrough rfl rfl hprepare hthrough
  have hperm := (perm_written hwrite).symm
  have hstart : Startable sparseSettings sparseSession.tree := by
    apply startable_of_directories <;> decide
  have hexact :=
    (lone_names_keep_artifacts hbuild).2 separate_sparseSettings hstart hslash (hnames.perm hperm)
  obtain ⟨sources, bundled, hsources, -, hcompiled, hfile⟩ :=
    hexact.bundle (by rw [htype]; decide) (by rw [htype]; exact (hbundle.mpr rfl).perm hperm)
  obtain ⟨table, l, text, -, hl, htext, hlanguageFile⟩ :=
    hexact.languages "en" (by decide) (hlanguage.perm hperm)
  rw [htype] at hcompiled hfile
  exact ⟨_, s', sources, bundled, table, l, text, hbuild, hsources, hcompiled, hfile,
    hl, htext, hlanguageFile⟩

/-- With the further file the build succeeds too. It says twice that it wrote the bundle, which was
empty, and the file is another. -/
theorem copy_replaces_bundle : ∃ result s' a s₁,
    build sparseSettings passthrough replacingSession = .ok result s' ∧ ¬ result.written.Nodup ∧
    prepare sparseSettings passthrough replacingSession =
      .ok ⟨result.manifest, result.registry, a⟩ s₁ ∧
    a.texts.get? (bundleFile .plugin) = some "" ∧
    HasText sparseSettings s'.tree (bundleFile .plugin) "own" := by
  obtain ⟨made, s₁, hprepare, hthrough, -, -, -, hnodup, -, -, htext, hplaced⟩ :=
    prepare_replacing (replacingSession, "own") (by simp)
  obtain ⟨_, s', hbuild, hwrite, hplace⟩ := placed_of_getsThrough rfl rfl hprepare hthrough
  refine ⟨_, s', made.artifacts, s₁, hbuild, fun htwice => ?_, hprepare, htext,
    hplaced.of_ok hplace⟩
  have hempty : "own" = "" := hnodup.mp ((perm_written hwrite).nodup_iff.mp htwice)
  exact absurd hempty (by decide)

/-! ## The file list in the export

The list of the addon file is complete whatever the names are. Whether it is in the export
depends on the names: the addon file is a document like the others, and a file that is
copied can replace it. -/

/-- **The file list and the written files agree.** When a build is done, the list that was made for
the addon file has every name that was written. Each entry of the list is such a name, or it is the
name of the icon or of a further file that is not in the directory of the sources, and the build has
given a warning about that file. The addon file of the export is the one with this list if no other
name leads to it; here the directories of the build lie apart and the names lead down, none through
another. -/
theorem fileList_matches_written {settings : Settings} {compiler : Compiler} {s s' : Session}
    {result : Result} (h : build settings compiler s = .ok result s') :
    ∃ a files icon issued,
      writeAll settings result.manifest a s.tree = .ok (result.written, result.package) s'.tree ∧
      a.documents.get? addonFile = some (Document.ofValue (addonValue result.manifest
        result.registry.dispatch settings.tags settings.editorScripts)) ∧
      partAt (addonValue result.manifest result.registry.dispatch settings.tags
        settings.editorScripts) ["file-list"] = some (.list files) ∧
      result.manifest.icon = .str icon ∧
      s'.warnings = s.warnings ++ issued ∧
      Lists s.tree (wantedFiles settings.sourcePath icon result.manifest.fileDependencies) issued
        result.written files ∧
      (Separate settings → Startable settings s.tree → '/' ∉ result.manifest.archiveName.toList →
        Tidy result.written → Alone result.written addonFile → ∃ text,
          Document.ofValue (addonValue result.manifest result.registry.dispatch settings.tags
            settings.editorScripts) = .ok text ∧
          HasText settings s'.tree addonFile (text ++ "\n")) := by
  obtain ⟨a, files, icon, issued, hwrite, hdocument, hpart, hicon, hwarnings, hlists⟩ :=
    lists_of_build h
  refine ⟨a, files, icon, issued, hwrite, hdocument, hpart, hicon, hwarnings, hlists, ?_⟩
  intro hsep ht hslash htidy halone
  exact (exact_of_build h hsep ht hslash htidy).addon halone

/-- The names of the icon and of the further files. -/
def copiedNames? (m : Manifest) : Option (List String) :=
  m.icon.toText?.map (· :: m.fileDependencies.map (·.filename))

/-- The parts of a configuration whose icon has the name of the addon file. -/
def shadowingConfig : List String :=
  ["\x7b\"addonType\":\"plugin\",\"id\":\"a\",\"name\":\"A\",\"version\":\"1\",",
    "\"icon\":\"addon.json\"\x7d"]

/-- A project with that configuration and that icon. -/
def shadowingSession : Session where
  tree := .mk [(["w"], .directory), (["w", "src"], .directory),
    (["w", "src", "a.json"], .file (.data (Text.encode (shadowingConfig.flatMap String.toList)))),
    (["w", "src", "addon.json"], .file (.ofText "\x7b\x7d"))]

set_option maxRecDepth 100000 in
theorem prepare_sparse : Achieves (prepare sparseSettings passthrough sparseSession) fun made s₁ =>
    GetsThrough sparseSettings made s₁.tree ∧ copiedNames? made.manifest = some ["icon.svg", "x"] ∧
    '/' ∉ made.manifest.archiveName.toList ∧ Tidy made.artifacts.names ∧
    Alone made.artifacts.names addonFile ∧ "lang/en.json" ∈ made.artifacts.names ∧
    "icon.svg" ∉ made.artifacts.names ∧ "c3runtime/x" ∉ made.artifacts.names := by
  decide +kernel

/-- The icon and the further file are listed and not written, and the list is in the export. -/
theorem fileList_matches_written_sparse : ∃ result s' files icon issued text,
    build sparseSettings passthrough sparseSession = .ok result s' ∧
    copiedNames? result.manifest = some ["icon.svg", "x"] ∧ "lang/en.json" ∈ result.written ∧
    "icon.svg" ∉ result.written ∧ "c3runtime/x" ∉ result.written ∧
    partAt (addonValue result.manifest result.registry.dispatch ["en", "en"] ["e.py"])
      ["file-list"] = some (.list files) ∧
    result.manifest.icon = .str icon ∧ s'.warnings = [] ++ issued ∧
    Lists sparseSession.tree
      (wantedFiles sparseSettings.sourcePath icon result.manifest.fileDependencies) issued
      result.written files ∧
    Document.ofValue (addonValue result.manifest result.registry.dispatch ["en", "en"] ["e.py"]) =
      .ok text ∧
    HasText sparseSettings s'.tree addonFile (text ++ "\n") := by
  obtain ⟨made, s₁, hprepare, hthrough, hcopied, hslash, hnames, halone, hlanguage, hicon,
    hfurther⟩ := prepare_sparse
  obtain ⟨_, s', hbuild, hwrite, -⟩ := placed_of_getsThrough rfl rfl hprepare hthrough
  have hperm := (perm_written hwrite).symm
  rw [← mem_written hwrite] at hlanguage hicon hfurther
  have hstart : Startable sparseSettings sparseSession.tree := by
    apply startable_of_directories <;> decide
  obtain ⟨a, files, icon, issued, -, -, hpart, htext, hwarnings, hlists, hexported⟩ :=
    fileList_matches_written hbuild
  obtain ⟨text, hrendered, hfile⟩ := hexported separate_sparseSettings hstart hslash
    (hnames.perm hperm) (halone.perm hperm)
  exact ⟨_, s', files, icon, issued, text, hbuild, hcopied, hlanguage, hicon, hfurther, hpart,
    htext, hwarnings, hlists, hrendered, hfile⟩

set_option maxRecDepth 100000 in
theorem prepare_shadowing :
    Achieves (prepare sparseSettings passthrough shadowingSession) fun made s₁ =>
      GetsThrough sparseSettings made s₁.tree ∧ addonFile ∈ made.artifacts.names ∧
      Achieves (placeExport sparseSettings.exportPath made.artifacts s₁.tree) fun _ t =>
        t.get? (sparseSettings.exportPath.place ++ way addonFile) =
          some (.file (.ofText "\x7b\x7d")) := by
  decide +kernel

/-- An icon with the name of the addon file is written over it. The build succeeds, and the addon
file of the export is a document without a list. -/
theorem icon_replaces_addonFile : ∃ result s',
    build sparseSettings passthrough shadowingSession = .ok result s' ∧
    addonFile ∈ result.written ∧ HasText sparseSettings s'.tree addonFile "\x7b\x7d" ∧
    Json.read "\x7b\x7d".toList = .ok (.dict []) ∧ partAt (.dict []) ["file-list"] = none := by
  obtain ⟨made, s₁, hprepare, hthrough, hname, hplaced⟩ := prepare_shadowing
  obtain ⟨_, s', hbuild, hwrite, hplace⟩ := placed_of_getsThrough rfl rfl hprepare hthrough
  exact ⟨_, s', hbuild, (mem_written hwrite _).mpr hname, hplaced.of_ok hplace, rfl, rfl⟩

end Addon.Build
