import Addon.Proofs.Build.Step
import Addon.Proofs.File.Tree
import Mathlib.Logic.Relation

/-!
# Exports — what writing one does to the files

An export is written beside its directory and then swapped in. Up to the swap, all that is done is
to remove the directories that an earlier run left behind, to make directories, and to write files
in the staging directory. None of this changes a file of the export.

## The architecture

* **`Writes`** — one change while the files are staged, with its cause.
* **`Work.Runs`** — work that consists of such changes, whether it succeeds or fails.
* **`Stages`**, **`Stages.each`** — staging consists of them, item by item.
* **`Guards`** — what stays as it was up to the swap; kept by each change, so by each run.
* **`Ready`** — the staging directory is there once the first document is; kept by each run.
-/

namespace Addon.Build

open File Relation

variable {name : String} {p : Path} {q : Place}

/-! ## Places of an export -/

section Places

variable {directory : Path}

theorem length_stagingName (name : String) : (s!".{name}.staging").length = name.length + 9 := by
  have hends : ".".length = 1 ∧ ".staging".length = 8 := by decide
  simp [toString, String.length_append]
  omega

theorem length_backupName (name : String) : (s!".{name}.previous").length = name.length + 10 := by
  have hends : ".".length = 1 ∧ ".previous".length = 9 := by decide
  simp [toString, String.length_append]
  omega

theorem ne_up_of_length (h : 2 < name.length) : name ≠ ".." := by
  rintro rfl
  exact absurd h (by decide)

theorem place_stagingPath (directory : Path) :
    (stagingPath directory).place = directory.parent.place ++ [s!".{directory.name}.staging"] :=
  Path.place_withName (ne_up_of_length (by rw [length_stagingName]; omega))

theorem place_backupPath (directory : Path) :
    (backupPath directory).place = directory.parent.place ++ [s!".{directory.name}.previous"] :=
  Path.place_withName (ne_up_of_length (by rw [length_backupName]; omega))

theorem name_ne_of_isNamed (h : Tree.isNamed directory) : directory.name ≠ "" := by
  simp only [Tree.isNamed, Bool.and_eq_true, decide_eq_true_eq] at h
  exact h.1

theorem place_of_isNamed (h : Tree.isNamed directory) :
    directory.place = directory.parent.place ++ [directory.name] := by
  simp only [Tree.isNamed, Bool.and_eq_true, decide_eq_true_eq] at h
  rw [Path.place_eq_step (Path.parts_ne_nil_of_name h.1), Path.step_of_ne h.2]

theorem apart_of_ne (base : Place) {a b : String} (h : a ≠ b) :
    Tree.Apart (base ++ [a]) (base ++ [b]) := by
  constructor
  · intro hp
    simpa using h (by simpa using hp.eq_of_length (by simp))
  · intro hp
    simpa using h (by simpa using (hp.eq_of_length (by simp)).symm)

theorem apart_staging_backup (directory : Path) :
    Tree.Apart (stagingPath directory).place (backupPath directory).place := by
  rw [place_stagingPath, place_backupPath]
  refine apart_of_ne _ fun h => ?_
  have := congrArg String.length h
  rw [length_stagingName, length_backupName] at this
  omega

theorem apart_export_staging (h : Tree.isNamed directory) :
    Tree.Apart directory.place (stagingPath directory).place := by
  rw [place_of_isNamed h, place_stagingPath]
  refine apart_of_ne _ fun h => ?_
  have := congrArg String.length h
  rw [length_stagingName] at this
  omega

theorem apart_export_backup (h : Tree.isNamed directory) :
    Tree.Apart directory.place (backupPath directory).place := by
  rw [place_of_isNamed h, place_backupPath]
  refine apart_of_ne _ fun h => ?_
  have := congrArg String.length h
  rw [length_backupName] at this
  omega

end Places

/-! ## Changes

`Writes` says all that one change of the staging directory can be. -/

namespace Work

/-- Work that consists of changes of a kind. -/
def Runs {α : Type} (change : Tree → Tree → Prop) (w : Work α) : Prop :=
  ∀ t, ReflTransGen change t (left (w t))

variable {α β : Type} {step : Tree → Tree → Prop}

theorem runs_pure (a : α) : Runs step (pure a : Work α) := fun _ => .refl

theorem runs_throw (e : Failure) : Runs step (throw e : Work α) := fun _ => .refl

theorem Runs.bind {w : Work α} {f : α → Work β} (hw : Runs step w) (hf : ∀ a, Runs step (f a)) :
    Runs step (w >>= f) := by
  intro t
  have h := hw t
  rw [run_bind]
  cases hwt : w t with
  | error e u =>
    rw [hwt] at h
    exact h
  | ok a u =>
    rw [hwt] at h
    exact h.trans (hf a u)

theorem runs_look (f : Tree → Attempt α) : Runs step (look f) := by
  intro t
  unfold look
  cases f t <;> exact .refl

theorem runs_change {f : Tree → Except FileError Tree} (h : ∀ t u, f t = .ok u → step t u) :
    Runs step (change f) := by
  intro t
  unfold change
  cases hf : f t with
  | ok u => exact .single (h t u hf)
  | error e => exact .refl

theorem run_isThere (p : Path) (t : Tree) : isThere p t = match t.isThere p with
    | .error e => .error (.file e) t
    | .ok b => .ok b t := by
  unfold isThere look
  dsimp only
  cases t.isThere p <;> rfl

theorem run_change (f : Tree → Except FileError Tree) (t : Tree) : change f t = match f t with
    | .error e => .error (.file e) t
    | .ok u => .ok () u := by
  unfold change
  cases f t <;> rfl

theorem look_eq_ok {f : Tree → Attempt α} {t u : Tree} {a : α} (h : look f t = .ok a u) :
    f t = .ok a ∧ u = t := by
  unfold look at h
  cases hf : f t with
  | error e => rw [hf] at h; cases h
  | ok b =>
    rw [hf] at h
    cases h
    exact ⟨rfl, rfl⟩

theorem change_eq_ok {f : Tree → Except FileError Tree} {t u : Tree} (h : change f t = .ok () u) :
    f t = .ok u := by
  rw [run_change] at h
  split at h
  · cases h
  · next hf =>
    cases h
    exact hf

end Work

theorem removeIfThere_eq (p : Path) (t : Tree) : removeIfThere p t = match t.isThere p with
    | .error e => .error (.file e) t
    | .ok false => .ok () t
    | .ok true => match t.removeDirectory p with
      | .error e => .error (.file e) t
      | .ok u => .ok () u := by
  unfold removeIfThere
  rw [run_bind, Work.run_isThere]
  cases t.isThere p with
  | error e => rfl
  | ok b =>
    cases b with
    | false => rfl
    | true => exact Work.run_change (fun t => t.removeDirectory p) t

theorem removeIfThere_of_directory {t : Tree} (hplace : t.locate p = .ok p.place)
    (hdir : t.get? p.place = some .directory) : removeIfThere p t = .ok () (t.erase p.place) := by
  have hthere : t.isThere p = .ok true :=
    Tree.isThere_eq_true_iff.mpr ⟨hplace, by rw [hdir]; rfl⟩
  rw [removeIfThere_eq, hthere]
  unfold Tree.removeDirectory
  rw [hplace]
  simp only [hdir]

theorem removeIfThere_of_none {t : Tree} (hplace : t.locate p = .ok p.place)
    (hnone : t.get? p.place = none) : removeIfThere p t = .ok () t := by
  rw [removeIfThere_eq]
  unfold Tree.isThere Tree.ask
  rw [Tree.inspect_eq, hplace]
  simp only [hnone]

theorem removeIfThere_of_nameTooLong {t : Tree} (hlong : t.locate p = .error .nameTooLong) :
    removeIfThere p t = .error (.file .nameTooLong) t := by
  rw [removeIfThere_eq]
  unfold Tree.isThere Tree.ask
  rw [Tree.inspect_eq, hlong]

/-- The end of a swap: the staged files take the place of the export, and the
one before is removed. -/
def settle (directory : Path) : Work Unit := do
  Work.change fun t => t.move (stagingPath directory) directory
  removeIfThere (backupPath directory)

theorem settle_eq (directory : Path) (t : Tree) : settle directory t =
    match t.move (stagingPath directory) directory with
      | .error e => .error (.file e) t
      | .ok u => removeIfThere (backupPath directory) u := by
  unfold settle
  rw [run_bind, Work.run_change]
  cases t.move (stagingPath directory) directory <;> rfl

/-- An export that is there is put aside before the end of the swap. -/
theorem swapIn_eq (directory : Path) (t : Tree) : swapIn directory t =
    match t.isThere directory with
      | .error e => .error (.file e) t
      | .ok false => settle directory t
      | .ok true => match t.move directory (backupPath directory) with
        | .error e => .error (.file e) t
        | .ok u => settle directory u := by
  unfold swapIn
  rw [run_bind, Work.run_isThere]
  cases t.isThere directory with
  | error e => rfl
  | ok b =>
    cases b with
    | false => rfl
    | true =>
      change (Work.change (fun t => t.move directory (backupPath directory)) >>= fun _ =>
        settle directory) t = _
      rw [run_bind, Work.run_change]
      dsimp only
      cases t.move directory (backupPath directory) <;> rfl

/-- A change while files are staged under some names: directories are made for a name, or a file is
written there. A file that is copied onto a directory is written into it. -/
inductive Writes (staging : Path) (names : List String) : Tree → Tree → Prop
  | grow {t u : Tree} {name : String} (hname : name ∈ names)
      (h : Tree.Grows (staging.join name).parent t u) : Writes staging names t u
  | put {t : Tree} {name : String} (content : Content) (hname : name ∈ names)
      (hplace : t.locate (staging.join name) = .ok (staging.join name).place)
      (hroom : t.HasRoom (staging.join name).place (.file content)) :
      Writes staging names t (t.set (staging.join name).place (.file content))
  | putInto {t : Tree} {name : String} (source : Path) (content : Content) (hname : name ∈ names)
      (hdir : t.isDirectory (staging.join name) = .ok true)
      (hsource : t.inspect source = .ok (.file content))
      (hroom : t.HasRoom ((staging.join name).join source.name).place (.file content)) :
      Writes staging names t (t.set ((staging.join name).join source.name).place (.file content))

theorem Writes.mono {staging : Path} {names names' : List String} (h : names ⊆ names') {t u : Tree}
    (hw : Writes staging names t u) : Writes staging names' t u := by
  cases hw with
  | grow hname hg => exact .grow (h hname) hg
  | put content hname hplace hroom => exact .put content (h hname) hplace hroom
  | putInto source content hname hdir hsource hroom =>
    exact .putInto source content (h hname) hdir hsource hroom

/-- A file is never written over a directory. -/
theorem Writes.directory {staging : Path} {names : List String} {t u : Tree}
    (hw : Writes staging names t u) (hq : t.get? q = some .directory) :
    u.get? q = some .directory := by
  cases hw with
  | grow hname hg => exact hg.directory hq
  | put c hname hplace hroom => exact Tree.directory_set hroom hq
  | putInto source c hname hdir hsource hroom => exact Tree.directory_set hroom hq

section Staging

variable {staging : Path} {names : List String}

theorem runs_write (hname : name ∈ names) (content : Content) :
    Work.Runs (Writes staging names) (Work.change fun t =>
      t.write (staging.join name) content) := by
  refine Work.runs_change fun t u h => ?_
  obtain ⟨hplace, hroom, rfl⟩ := Tree.write_eq_ok h
  exact .put content hname hplace hroom

theorem runs_ensure (hname : name ∈ names) :
    Work.Runs (Writes staging names)
      (Work.change fun t => t.ensureDirectories (staging.join name).parent) :=
  Work.runs_change fun _ _ h => .grow hname (Tree.grows_ensureDirectories h)

/-- **One item.** A writer changes the tree as `Writes` allows, under whichever name it is used. -/
abbrev Stages {α : Type} (write : Path → α → Work Unit) : Prop :=
  ∀ {staging : Path} {names : List String} {name : String}, name ∈ names → ∀ item,
    Work.Runs (Writes staging names) (write (staging.join name) item)

theorem stages_writeText : Stages writeText := fun hname text => by
  refine (runs_ensure hname).bind fun _ => ?_
  split
  · exact runs_write hname _
  · exact (runs_write hname _).bind fun _ => Work.runs_throw _

theorem stages_writeDocument : Stages writeDocument := fun hname _ =>
  (Work.runs_look _).bind fun _ => stages_writeText hname _

theorem runs_copy (hname : name ∈ names) (source : Path) :
    Work.Runs (Writes staging names) (Work.change fun t => t.copy source (staging.join name)) := by
  refine Work.runs_change fun t u h => ?_
  rw [Tree.copy_eq] at h
  obtain ⟨content, hread, hwrite⟩ := Tree.copyTo_eq_ok h
  unfold Tree.landing at hwrite
  split at hwrite
  · next hdir =>
    obtain ⟨-, hroom, rfl⟩ := Tree.write_eq_ok hwrite
    exact .putInto source content hname hdir hread hroom
  · obtain ⟨hplace, hroom, rfl⟩ := Tree.write_eq_ok hwrite
    exact .put content hname hplace hroom

theorem stages_copyFile : Stages copyFile := fun hname source =>
  (runs_ensure hname).bind fun _ => runs_copy hname source

/-- **The table**, item by item. -/
theorem Stages.each {α : Type} {write : Path → α → Work Unit} (hwrite : Stages write)
    (staging : Path) (items : Fields α) (h : items.keys ⊆ names) :
    Work.Runs (Writes staging names) (writeEach write staging items) := by
  induction items with
  | nil => exact Work.runs_pure ()
  | cons item rest ih =>
    obtain ⟨hname, hrest⟩ := List.cons_subset.mp h
    exact (hwrite hname _).bind fun _ => ih hrest

end Staging

/-! ## Stages of an export -/

/-- Removes what an earlier run left behind. -/
def clearStale (directory : Path) : Work Unit := do
  removeIfThere (stagingPath directory)
  removeIfThere (backupPath directory)

/-- Writes all files to the staging directory. -/
def stageFiles (directory : Path) (a : Artifacts) : Work Unit := do
  writeEach writeDocument (stagingPath directory) a.documents
  writeEach writeText (stagingPath directory) a.texts
  writeEach copyFile (stagingPath directory) a.copies

/-- An export is cleared, staged and swapped in. -/
theorem writeExport_eq {directory : Path} (h : directory.name ≠ "") (a : Artifacts) :
    writeExport directory a = do
      clearStale directory
      stageFiles directory a
      swapIn directory
      return sortedNames a.names := by
  unfold writeExport clearStale stageFiles
  rw [if_neg h]
  simp only [run_bind_assoc]

theorem Artifacts.documents_subset (a : Artifacts) : a.documents.keys ⊆ a.names := fun _ hn =>
  List.mem_append_left _ (List.mem_append_left _ hn)

theorem Artifacts.texts_subset (a : Artifacts) : a.texts.keys ⊆ a.names := fun _ hn =>
  List.mem_append_left _ (List.mem_append_right _ hn)

theorem Artifacts.copies_subset (a : Artifacts) : a.copies.keys ⊆ a.names :=
  List.subset_append_right ..

theorem runs_stageFiles (directory : Path) (a : Artifacts) :
    Work.Runs (Writes (stagingPath directory) a.names) (stageFiles directory a) :=
  (stages_writeDocument.each _ _ a.documents_subset).bind fun _ =>
    (stages_writeText.each _ _ a.texts_subset).bind fun _ =>
      stages_copyFile.each _ _ a.copies_subset

/-! ## Up to the swap

Until then the files of the export before stay as they are. -/

/-- A place that is not taken up by an export, by its staging directory or by the export before. -/
def Outside (directory : Path) (q : Place) : Prop :=
  ¬ directory.place <+: q ∧ ¬ (stagingPath directory).place <+: q ∧
    ¬ (backupPath directory).place <+: q

/-- The files of an export are as they were, and so are the directories around it. -/
structure Guards (directory : Path) (before t : Tree) : Prop where
  files : ∀ q c, directory.place <+: q →
    (t.get? q = some (.file c) ↔ before.get? q = some (.file c))
  /-- No file gets in the way of putting the export aside. -/
  aside : ∀ c, t.get? (backupPath directory).place ≠ some (.file c)
  directories : ∀ q, Outside directory q →
    before.get? q = some .directory → t.get? q = some .directory

section Guards

variable {directory : Path} {before t u : Tree}

theorem Guards.grow {way : Path} (h : Guards directory before t) (hg : Tree.Grows way t u) :
    Guards directory before u where
  files q c hq := hg.file_iff.trans (h.files q c hq)
  aside c := mt hg.file_iff.mp (h.aside c)
  directories q hq hdir := hg.directory (h.directories q hq hdir)

theorem Guards.put (hnamed : Tree.isNamed directory) (h : Guards directory before t)
    (hq : (stagingPath directory).place <+: q) {c : Content} (hroom : t.HasRoom q (.file c)) :
    Guards directory before (t.set q (.file c)) := by
  refine ⟨fun r c' hr => ?_, fun c' => ?_, fun r hr hdir => ?_⟩
  · have hrq : r ≠ q := by
      rintro rfl
      exact (apart_export_staging hnamed).not_within hr hq
    rw [Tree.get?_set hroom, if_neg hrq]
    exact h.files r c' hr
  · have hbackup : (backupPath directory).place ≠ q := by
      rintro heq
      exact (apart_staging_backup directory).1 (heq ▸ hq)
    rw [Tree.get?_set hroom, if_neg hbackup]
    exact h.aside c'
  · have hrq : r ≠ q := by
      rintro rfl
      exact hr.2.1 hq
    rw [Tree.get?_set hroom, if_neg hrq]
    exact h.directories r hr hdir

theorem Guards.erase (h : Guards directory before t) (hq : Tree.Apart directory.place q)
    (hout : ∀ r, Outside directory r → ¬ q <+: r) : Guards directory before (t.erase q) := by
  have hne : q ≠ [] := hq.symm.ne_nil
  refine ⟨fun r c hr => ?_, fun c => ?_, fun r hr hdir => ?_⟩
  · rw [Tree.get?_erase t hne, if_neg (hq.not_within hr)]
    exact h.files r c hr
  · rw [Tree.get?_erase t hne]
    split
    · simp
    · exact h.aside c
  · rw [Tree.get?_erase t hne, if_neg (hout r hr)]
    exact h.directories r hr hdir

/-- **The step.** What is done under names that stay inside the staging
directory keeps the guard. -/
theorem Guards.writes {names : List String} (hnamed : Tree.isNamed directory)
    (hinside : ∀ name ∈ names, (Path.ofText name).StaysInside) (h : Guards directory before t)
    (hw : Writes (stagingPath directory) names t u) : Guards directory before u := by
  cases hw with
  | grow hname hg => exact h.grow hg
  | put c hname hplace hroom =>
    exact h.put hnamed (Path.prefix_place_append (hinside _ hname)) hroom
  | putInto source c hname hdir hsource hroom =>
    have hlast := Path.staysInside_name (Tree.name_ne_up_of_file hsource)
    exact h.put hnamed
      ((Path.prefix_place_append (hinside _ hname)).trans (Path.prefix_place_append hlast)) hroom

/-- **The run.** -/
theorem Guards.runs {names : List String} (hnamed : Tree.isNamed directory)
    (hinside : ∀ name ∈ names, (Path.ofText name).StaysInside) (h : Guards directory before t)
    (hruns : ReflTransGen (Writes (stagingPath directory) names) t u) :
    Guards directory before u := by
  induction hruns with
  | refl => exact h
  | tail _ hw ih => exact ih.writes hnamed hinside hw

/-- The staging directory is there and can be walked to. -/
structure Ready (directory : Path) (t : Tree) : Prop where
  way : t.Walkable [] (stagingPath directory).parts
  directories : ∀ r, r <+: (stagingPath directory).place → t.get? r = some .directory

theorem Ready.writes {names : List String} (h : Ready directory t)
    (hw : Writes (stagingPath directory) names t u) : Ready directory u where
  way before part hb := ⟨hw.directory (h.way before part hb).1, (h.way before part hb).2⟩
  directories r hr := hw.directory (h.directories r hr)

theorem Ready.runs {names : List String} (h : Ready directory t)
    (hruns : ReflTransGen (Writes (stagingPath directory) names) t u) : Ready directory u := by
  induction hruns with
  | refl => exact h
  | tail _ hw ih => exact ih.writes hw

theorem writeText_eq_ok {text : String} (h : writeText p text t = .ok () u) :
    ∃ v, Tree.Grows p.parent t v ∧ v.write p (.ofText text) = .ok u := by
  obtain ⟨_, v, hensure, h⟩ := run_bind_eq_ok.mp h
  refine ⟨v, Tree.grows_ensureDirectories (Work.change_eq_ok hensure), ?_⟩
  cases hcheck : Text.checkEncodable text.toList with
  | ok _ =>
    rw [hcheck] at h
    exact Work.change_eq_ok h
  | error e =>
    rw [hcheck] at h
    obtain ⟨_, _, -, h⟩ := run_bind_eq_ok.mp h
    cases h

theorem parts_join (hname : IsPart name) :
    (p.join name).parts = p.parts ++ [name] := by
  obtain ⟨hstart, hparts⟩ := Path.ofText_of_isPart hname
  unfold Path.join
  rw [Path.parts_append hstart, hparts]

theorem place_join (hname : IsPart name)
    (hup : name ≠ "..") : (p.join name).place = p.place ++ [name] := by
  unfold Path.place
  rw [parts_join hname, List.foldl_append, List.foldl_cons, List.foldl_nil, Path.step_of_ne hup]

/-- Once a file is in the staging directory, that directory is there. -/
theorem ready_writeText {text : String} (hname : IsPart name)
    (hup : name ≠ "..") (h : writeText ((stagingPath directory).join name) text t = .ok () u) :
    Ready directory u := by
  obtain ⟨v, -, hwrite⟩ := writeText_eq_ok h
  obtain ⟨hplace, hroom, rfl⟩ := Tree.write_eq_ok hwrite
  obtain ⟨-, hwalk, -⟩ := Tree.locate_eq_ok_iff.mp hplace
  refine ⟨fun before part hb => ?_, fun r hr => Tree.directory_set hroom ?_⟩
  · have := hwalk before part (hb.trans (parts_join hname ▸ List.prefix_append _ _))
    exact ⟨Tree.directory_set hroom this.1, this.2⟩
  · refine Tree.supports_of_locate hplace r ?_ ?_
    · rw [place_join hname hup]
      exact hr.trans (List.prefix_append _ _)
    · rintro rfl
      have := (place_join hname hup ▸ hr).length_le
      rw [List.length_append, List.length_singleton] at this
      omega

/-- The first document has a plain name. -/
abbrev StartsPlain (a : Artifacts) : Prop :=
  ∃ name d rest, a.documents = (name, d) :: rest ∧ IsPart name ∧ name ≠ ".."

/-- The first document makes the staging directory, and nothing that follows takes it away. -/
theorem ready_stageFiles {a : Artifacts} (hplain : StartsPlain a)
    (h : stageFiles directory a t = .ok () u) : Ready directory u := by
  obtain ⟨name, d, rest, hfirst, hname, hup⟩ := hplain
  unfold stageFiles at h
  rw [hfirst] at h
  obtain ⟨_, v, hdocuments, h⟩ := run_bind_eq_ok.mp h
  obtain ⟨_, t₂, hdocument, hdocuments⟩ := run_bind_eq_ok.mp hdocuments
  obtain ⟨text, t₁, -, htext⟩ := run_bind_eq_ok.mp hdocument
  -- The rest of the documents, the texts and the copies are files like those of an
  -- export without the first.
  have hrest := runs_stageFiles directory { a with documents := rest } t₂
  have hrun : stageFiles directory { a with documents := rest } t₂ = .ok () u :=
    run_bind_eq_ok.mpr ⟨(), v, hdocuments, h⟩
  exact (ready_writeText hname hup htext).runs (left_of_ok hrun ▸ hrest)

theorem left_removeIfThere (p : Path) (t : Tree) :
    left (removeIfThere p t) = t ∨
      (t.get? p.place = some .directory ∧ left (removeIfThere p t) = t.erase p.place) := by
  rw [removeIfThere_eq]
  split
  · exact .inl rfl
  · exact .inl rfl
  · split
    · exact .inl rfl
    · next u hremove =>
      obtain ⟨-, hdir, rfl⟩ := Tree.removeDirectory_eq_ok hremove
      exact .inr ⟨hdir, rfl⟩

end Guards

end Addon.Build
