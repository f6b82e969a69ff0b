import Addon.Proofs.Build.Export
import Addon.Proofs.File.Agreement

/-!
# Staging — what is in an export

An export starts without a staging directory and without the export before it. From then on the
staging directory has the files that were staged and the directories above them, and nothing else.
The swap puts exactly that in the place of the export, and clears the places beside it.

## The architecture

* **`Sited`** — the directories of an export can be used; kept by removing one of them.
* **`clearStale_of_ne`**, **`clearStale_of_eq`** — clearing succeeds, or a path is too long for it.
* **`Tidy`** — names that lead down, none through another.
* **`Staged`**, **`Holds`** — what is in the staging directory and what stays there; kept by each
  change, so by each run. Together they say what staging leaves: **`staged_stageFiles`**.
* **`Writes.frame`** — staging changes nothing in a zone beside the staging directory.
* **`swapIn_of_locate`**, **`swapIn_of_nameTooLong`** — the swap succeeds, or a
  path is too long for it.
-/

namespace Addon.Build

open File Relation

variable {directory : Path} {t u : Tree}

/-! ## Clearing

What a build before has left behind is gone before anything is written. -/

/-- What is not there is not removed. -/
theorem removeIfThere_of_obstacle {p : Path} {o : Obstacle} (ho : o ≠ .nameTooLong)
    (hlocate : t.locate p = .error o) : removeIfThere p t = .ok () t := by
  rw [removeIfThere_eq]
  unfold Tree.isThere Tree.ask
  rw [Tree.inspect_eq, hlocate]
  cases o with
  | nameTooLong => exact absurd rfl ho
  | _ => rfl

/-- A directory is removed with all that lies in it, unless its path is too long to be looked at. -/
theorem removeIfThere_of_ne {p : Path} (hfile : ∀ c, t.get? p.place ≠ some (.file c))
    (hplace : p.place ≠ []) (hnull : Tree.hasNull p = false) (hfirm : t.Firm p)
    (hlong : t.locate p ≠ .error .nameTooLong) :
    ∃ v, removeIfThere p t = .ok () v ∧
    ∀ q, v.get? q = if p.place <+: q then none else t.get? q := by
  -- Where nothing is removed, nothing has been there.
  have hskip : removeIfThere p t = .ok () t → t.Clear p.place →
      ∃ v, removeIfThere p t = .ok () v ∧
        ∀ q, v.get? q = if p.place <+: q then none else t.get? q := by
    intro hremove hclear
    refine ⟨t, hremove, fun q => ?_⟩
    split_ifs with hq
    · exact hclear q hq
    · rfl
  cases hlocate : t.locate p with
  | error o =>
    have ho : o ≠ .nameTooLong := fun h => hlong (h ▸ hlocate)
    exact hskip (removeIfThere_of_obstacle ho hlocate)
      (Tree.clear_of_obstacle hfirm hnull ho hlocate)
  | ok place =>
    obtain rfl := (Tree.locate_eq_ok_iff.mp hlocate).2.2
    by_cases hdir : t.get? p.place = some .directory
    · exact ⟨_, removeIfThere_of_directory hlocate hdir, Tree.get?_erase t hplace⟩
    · have hclear := Tree.clear_of_no_entry hdir hfile
      exact hskip (removeIfThere_of_none hlocate (hclear _ List.prefix_rfl)) hclear

/-- The export, its staging directory and the export before. -/
def exportZones (directory : Path) : List Place :=
  [directory.place, (stagingPath directory).place, (backupPath directory).place]

/-- The directories of an export can be used: their path does not go through them, steps up go out
of directories that are there, and no file is in their place. -/
structure Sited (directory : Path) (t : Tree) : Prop where
  named : Tree.isNamed directory
  noNull : Tree.hasNull directory = false
  way : directory.parent.Avoids (exportZones directory)
  firm : t.Firm directory
  free : ∀ z ∈ exportZones directory, ∀ c, t.get? z ≠ some (.file c)

theorem noNull_affixed (h : Tree.hasNull directory = false) {ending : String}
    (hending : Char.ofNat 0 ∉ ending.toList) :
    Char.ofNat 0 ∉ s!".{directory.name}{ending}".toList := by
  simp only [toString, String.toList_append, List.mem_append, not_or]
  exact ⟨⟨by decide, Tree.noNull_name h⟩, hending⟩

theorem noNull_stagingPath (h : Tree.hasNull directory = false) :
    Tree.hasNull (stagingPath directory) = false :=
  Tree.hasNull_withName h (noNull_affixed h (by decide))

theorem noNull_backupPath (h : Tree.hasNull directory = false) :
    Tree.hasNull (backupPath directory) = false :=
  Tree.hasNull_withName h (noNull_affixed h (by decide))

/-- One of the directories beside an export is removed. -/
theorem Sited.remove (h : Sited directory t) {name : String} {hpart : IsPart name}
    (hname : name ≠ "..") (hzone : (directory.withName name hpart).place ∈ exportZones directory)
    (hnull : Tree.hasNull (directory.withName name hpart) = false)
    (hlong : t.locate (directory.withName name hpart) ≠ .error .nameTooLong) :
    ∃ v, removeIfThere (directory.withName name hpart) t = .ok () v ∧
      ∀ q, v.get? q = if (directory.withName name hpart).place <+: q then none else t.get? q := by
  refine removeIfThere_of_ne (h.free _ hzone) ?_ hnull (h.firm.withName hname) hlong
  rw [Path.place_withName hname]
  simp

theorem Sited.erase (h : Sited directory t) {z : Place} (hz : z ∈ exportZones directory)
    (hget : ∀ q, u.get? q = if z <+: q then none else t.get? q) : Sited directory u := by
  have hagree : Tree.AgreeOutside (exportZones directory) t u := fun q hq => by
    rw [hget, if_neg (hq z hz)]
  refine ⟨h.named, h.noNull, h.way, hagree.firm h.way h.firm, fun y hy c hc => ?_⟩
  rw [hget] at hc
  split_ifs at hc
  exact h.free y hy c hc

theorem Sited.removeStaging (h : Sited directory t)
    (hlong : t.locate (stagingPath directory) ≠ .error .nameTooLong) :
    ∃ v, removeIfThere (stagingPath directory) t = .ok () v ∧
      ∀ q, v.get? q = if (stagingPath directory).place <+: q then none else t.get? q :=
  h.remove (ne_up_of_length (by rw [length_stagingName]; omega))
    (by simp [exportZones, stagingPath])
    (noNull_stagingPath h.noNull) hlong

theorem Sited.removeBackup (h : Sited directory t)
    (hlong : t.locate (backupPath directory) ≠ .error .nameTooLong) :
    ∃ v, removeIfThere (backupPath directory) t = .ok () v ∧
      ∀ q, v.get? q = if (backupPath directory).place <+: q then none else t.get? q :=
  h.remove (ne_up_of_length (by rw [length_backupName]; omega)) (by simp [exportZones, backupPath])
    (noNull_backupPath h.noNull) hlong

/-- The path of the export before can be looked at as well as it could be with
the staging directory. -/
theorem Sited.locate_backup (h : Sited directory t)
    (hget : ∀ q, u.get? q = if (stagingPath directory).place <+: q then none else t.get? q) :
    u.locate (backupPath directory) = t.locate (backupPath directory) := by
  have hagree : Tree.AgreeOutside (exportZones directory) u t := fun q hq => by
    rw [hget, if_neg (hq _ (by simp [exportZones]))]
  refine hagree.locate ?_
  rw [backupPath, Path.parent_withName]
  exact h.way

/-- Nothing of an earlier run is left, and all else is as it was. -/
def Cleared (directory : Path) (t u : Tree) : Prop :=
  ∀ q, u.get? q =
    if (stagingPath directory).place <+: q ∨
      (backupPath directory).place <+: q then none else t.get? q

/-- **Clearing** leaves nothing of an earlier run. -/
theorem clearStale_of_ne (h : Sited directory t)
    (hstaging : t.locate (stagingPath directory) ≠ .error .nameTooLong)
    (hbackup : t.locate (backupPath directory) ≠ .error .nameTooLong) :
    ∃ v, clearStale directory t = .ok () v ∧ Cleared directory t v := by
  obtain ⟨v, hv, hget⟩ := h.removeStaging hstaging
  have hsited : Sited directory v := h.erase (by simp [exportZones]) hget
  obtain ⟨w, hw, hget'⟩ := hsited.removeBackup (h.locate_backup hget ▸ hbackup)
  refine ⟨w, run_bind_eq_ok.mpr ⟨(), v, hv, hw⟩, fun q => ?_⟩
  rw [hget', hget]
  by_cases hs : (stagingPath directory).place <+: q <;>
    by_cases hb : (backupPath directory).place <+: q <;> simp [hs, hb]

theorem clearStale_of_eq (h : Sited directory t)
    (hlong : t.locate (stagingPath directory) = .error .nameTooLong ∨
      t.locate (backupPath directory) = .error .nameTooLong) :
    ∃ v, clearStale directory t = .error (.file .nameTooLong) v := by
  by_cases hstaging : t.locate (stagingPath directory) = .error .nameTooLong
  · exact ⟨t, run_bind_eq_error.mpr (.inl (removeIfThere_of_nameTooLong hstaging))⟩
  · obtain ⟨v, hv, hget⟩ := h.removeStaging hstaging
    refine ⟨v, run_bind_eq_error.mpr (.inr ⟨(), v, hv, removeIfThere_of_nameTooLong ?_⟩)⟩
    rw [h.locate_backup hget]
    exact hlong.resolve_left hstaging

/-- Clearing succeeds only if the paths can be looked at. -/
theorem Sited.clearable (h : Sited directory t) (hrun : clearStale directory t = .ok () u) :
    t.locate (stagingPath directory) ≠ .error .nameTooLong ∧
      t.locate (backupPath directory) ≠ .error .nameTooLong := by
  by_contra hlong
  rw [not_and_or, not_not, not_not] at hlong
  obtain ⟨v, hv⟩ := clearStale_of_eq h hlong
  rw [hv] at hrun
  cases hrun

theorem Sited.staging_ne (h : Sited directory t) (hrun : clearStale directory t = .ok () u) :
    t.locate (stagingPath directory) ≠ .error .nameTooLong :=
  (h.clearable hrun).1

theorem Sited.cleared (h : Sited directory t) (hrun : clearStale directory t = .ok () u) :
    Cleared directory t u := by
  obtain ⟨hstaging, hbackup⟩ := h.clearable hrun
  obtain ⟨v, hv, hcleared⟩ := clearStale_of_ne h hstaging hbackup
  rw [hv] at hrun
  cases hrun
  exact hcleared

/-! ## Names of files -/

/-- The parts of a name. -/
abbrev way (name : String) : List String :=
  (Path.ofText name).parts

/-- Names of files in a directory: they lead down only, and none of them goes through another. -/
structure Tidy (names : List String) : Prop where
  here : ∀ name ∈ names, (Path.ofText name).start = .here
  down : ∀ name ∈ names, ".." ∉ way name
  apart : ∀ a ∈ names, ∀ b ∈ names, way a <+: way b → way a = way b

instance (names : List String) : Decidable (Tidy names) :=
  decidable_of_iff ((∀ name ∈ names, (Path.ofText name).start = .here) ∧
      (∀ name ∈ names, ".." ∉ way name) ∧ ∀ a ∈ names, ∀ b ∈ names, way a <+: way b → way a = way b)
    ⟨fun ⟨hhere, hdown, hapart⟩ => ⟨hhere, hdown, hapart⟩, fun h => ⟨h.here, h.down, h.apart⟩⟩

section Tidy

variable {names : List String} {p : Path} {name : String}

theorem Tidy.parts_join (h : Tidy names) (hname : name ∈ names) :
    (p.join name).parts = p.parts ++ way name :=
  Path.parts_append (h.here name hname)

theorem Tidy.place_join (h : Tidy names) (hname : name ∈ names) :
    (p.join name).place = p.place ++ way name := by
  unfold Path.place
  rw [h.parts_join hname, List.foldl_append, Path.foldl_step_of_not_mem (h.down name hname)]

/-- The way to a file goes along the way to its directory, and then down. -/
theorem Tidy.passes_join (h : Tidy names) (hname : name ∈ names) (hp : p.parts ≠ [])
    {before : List String} (hb : before <+: (p.join name).parts) :
    p.parent.Passes (before.foldl Path.step []) ∨
      ∃ rest, rest <+: way name ∧ before = p.parts ++ rest ∧
        before.foldl Path.step [] = p.place ++ rest := by
  rw [h.parts_join hname] at hb
  have hdown : ∀ rest, before = p.parts ++ rest → ∃ rest, rest <+: way name ∧
      before = p.parts ++ rest ∧ before.foldl Path.step [] = p.place ++ rest := by
    rintro rest rfl
    have hrest : rest <+: way name := (List.prefix_append_right_inj _).mp hb
    refine ⟨rest, hrest, rfl, ?_⟩
    rw [List.foldl_append, Path.foldl_step_of_not_mem fun hmem =>
      h.down name hname (hrest.subset hmem)]
    rfl
  rcases List.prefix_or_prefix_of_prefix hb (List.prefix_append p.parts _) with hup | ⟨rest, hrest⟩
  · have hparts := Path.parts_eq_concat hp
    rw [hparts] at hup
    rcases List.prefix_concat_iff.mp hup with heq | hup
    · exact .inr (hdown [] (by rw [heq, ← hparts, List.append_nil]))
    · exact .inl ⟨before, hup, rfl⟩
  · exact .inr (hdown rest hrest.symm)

end Tidy

theorem parts_stagingPath (directory : Path) : (stagingPath directory).parts ≠ [] := by
  simp [stagingPath, Path.withName]

/-! ## What is staged

Names that are tidy lead to places of their own, so no file is in the way of another. -/

/-- All that lies in the staging directory belongs to the files with some names. -/
def Staged (directory : Path) (names : List String) (t : Tree) : Prop :=
  ∀ q e, t.get? ((stagingPath directory).place ++ q) = some e → ∃ name ∈ names,
    (e = .directory ∧ q <+: way name ∧ q ≠ way name) ∨ ((∃ c, e = .file c) ∧ q = way name)

section Staged

variable {names : List String}

theorem Staged.of_clear (h : t.Clear (stagingPath directory).place) : Staged directory names t :=
  fun q e he => by
    rw [h _ (List.prefix_append _ _)] at he
    cases he

theorem Staged.not_directory (hnames : Tidy names) (h : Staged directory names t) {name : String}
    (hname : name ∈ names) : t.get? ((stagingPath directory).join name).place ≠
      some .directory := by
  rw [hnames.place_join hname]
  intro hdir
  obtain ⟨other, hother, ⟨-, hprefix, hne⟩ | ⟨⟨c, hc⟩, -⟩⟩ := h _ _ hdir
  · exact hne (hnames.apart name hname other hother hprefix)
  · cases hc

/-- **The step.** A change under a name adds the directories above it and the file. -/
theorem Staged.writes (hnames : Tidy names) (hway : directory.parent.Avoids (exportZones directory))
    (h : Staged directory names t) (hw : Writes (stagingPath directory) names t u) :
    Staged directory names u := by
  cases hw with
  | @grow _ name hname hg =>
    intro q e he
    rcases hg ((stagingPath directory).place ++ q) with hsame | ⟨⟨before, hb, hq⟩, -, hdir⟩
    · exact h q e (hsame ▸ he)
    · rw [hdir] at he
      obtain rfl := Option.some.inj he
      refine ⟨name, hname, .inl ⟨rfl, ?_⟩⟩
      -- a directory on the way to the name is inside, as the way to the staging directory avoids it
      rcases hnames.passes_join hname (parts_stagingPath directory)
        (hb.trans (Path.parent_prefix _))
        with hpass | ⟨rest, hrest, hbefore, hplace⟩
      · rw [hq, stagingPath, Path.parent_withName] at hpass
        exact absurd (List.prefix_append _ _) (hway _ hpass _ (by simp [exportZones, stagingPath]))
      · obtain rfl : rest = q := List.append_cancel_left (hplace.symm.trans hq)
        refine ⟨hrest, ?_⟩
        rintro rfl
        have hlength := hb.length_le
        rw [hbefore, Path.parent, List.length_dropLast, hnames.parts_join hname, List.length_append]
          at hlength
        have hpos := List.length_pos_iff.mpr (parts_stagingPath directory)
        omega
  | @put name c hname hplace hroom =>
    intro q e he
    rw [Tree.get?_set hroom] at he
    split_ifs at he with hq
    · rw [hnames.place_join hname] at hq
      obtain rfl := Option.some.inj he
      exact ⟨name, hname, .inr ⟨⟨c, rfl⟩, List.append_cancel_left hq⟩⟩
    · exact h q e he
  | putInto source c hname hdir hsource hroom =>
    exact absurd (Tree.isDirectory_eq_true_iff.mp hdir).2 (h.not_directory hnames hname)

theorem Staged.runs (hnames : Tidy names) (hway : directory.parent.Avoids (exportZones directory))
    (h : Staged directory names t)
    (hruns : ReflTransGen (Writes (stagingPath directory) names) t u) :
    Staged directory names u := by
  induction hruns with
  | refl => exact h
  | tail _ hw ih => exact ih.writes hnames hway hw

end Staged

/-! ### Files that are there -/

/-- A file is at a place. -/
def Holds (t : Tree) (q : Place) : Prop :=
  ∃ c, t.get? q = some (.file c)

section Holds

variable {staging : Path} {names : List String} {q : Place}

theorem Holds.set (h : Holds t q) {r : Place} {c : Content} (hroom : t.HasRoom r (.file c)) :
    Holds (t.set r (.file c)) q := by
  unfold Holds
  rw [Tree.get?_set hroom]
  split_ifs with hq
  · exact ⟨c, rfl⟩
  · exact h

/-- A file may be written anew, but it stays. -/
theorem Holds.writes (h : Holds t q) (hw : Writes staging names t u) : Holds u q := by
  cases hw with
  | grow hname hg =>
    obtain ⟨c, hc⟩ := h
    exact ⟨c, hg.file_iff.mpr hc⟩
  | put c hname hplace hroom => exact h.set hroom
  | putInto source c hname hdir hsource hroom => exact h.set hroom

theorem Holds.runs (h : Holds t q) (hruns : ReflTransGen (Writes staging names) t u) :
    Holds u q := by
  induction hruns with
  | refl => exact h
  | tail _ hw ih => exact ih.writes hw

theorem holds_write {path : Path} {c : Content} (h : t.write path c = .ok u) :
    Holds u path.place := by
  obtain ⟨-, hroom, rfl⟩ := Tree.write_eq_ok h
  exact ⟨c, by rw [Tree.get?_set hroom, if_pos rfl]⟩

theorem holds_writeText {path : Path} {text : String} (h : writeText path text t = .ok () u) :
    Holds u path.place := by
  obtain ⟨v, -, hwrite⟩ := writeText_eq_ok h
  exact holds_write hwrite

theorem holds_writeDocument {path : Path} {d : Document} (h : writeDocument path d t = .ok () u) :
    Holds u path.place := by
  obtain ⟨text, t₁, -, h⟩ := run_bind_eq_ok.mp h
  exact holds_writeText h

/-- The files of a table are there when it is written, if each is there when its item is written.
The invariant `I` is what writing an item needs of the tree. -/
theorem holds_writeEach {α : Type} {write : Path → α → Work Unit} {items : Fields α}
    {I : Tree → Prop} (hwrite : Stages write)
    (hstep : ∀ item ∈ items, ∀ {t u}, I t → write (staging.join item.1) item.2 t = .ok () u →
      Holds u (staging.join item.1).place ∧ I u)
    (ht : I t) (h : writeEach write staging items t = .ok () u) :
    ∀ name ∈ items.keys, Holds u (staging.join name).place := by
  induction items generalizing t with
  | nil => exact fun _ hname => absurd hname List.not_mem_nil
  | cons item rest ih =>
    obtain ⟨hitem, hothers⟩ := List.forall_mem_cons.mp hstep
    obtain ⟨_, t₂, hfirst, h⟩ := run_bind_eq_ok.mp h
    obtain ⟨hholds, ht₂⟩ := hitem ht hfirst
    have hrest := left_of_ok h ▸ hwrite.each staging rest (List.Subset.refl _) t₂
    exact List.forall_mem_cons.mpr ⟨hholds.runs hrest, ih hothers ht₂ h⟩

theorem holds_writeTexts {texts : Fields String}
    (h : writeEach writeText staging texts t = .ok () u) :
    ∀ name ∈ texts.keys, Holds u (staging.join name).place :=
  holds_writeEach (I := fun _ => True) stages_writeText
    (fun _ _ _ _ _ h => ⟨holds_writeText h, trivial⟩) trivial h

theorem holds_writeDocuments {documents : Fields Document}
    (h : writeEach writeDocument staging documents t = .ok () u) :
    ∀ name ∈ documents.keys, Holds u (staging.join name).place :=
  holds_writeEach (I := fun _ => True) stages_writeDocument
    (fun _ _ _ _ _ h => ⟨holds_writeDocument h, trivial⟩) trivial h

/-- A copy goes to its name, since no directory is there. -/
theorem holds_copyFile (hnames : Tidy names)
    (hway : directory.parent.Avoids (exportZones directory))
    {name : String} {source : Path} (hname : name ∈ names) (hstaged : Staged directory names t)
    (h : copyFile ((stagingPath directory).join name) source t = .ok () u) :
    Holds u ((stagingPath directory).join name).place := by
  obtain ⟨_, t₁, hensure, hcopy⟩ := run_bind_eq_ok.mp h
  have hstaged₁ : Staged directory names t₁ :=
    hstaged.writes hnames hway
      (.grow hname (Tree.grows_ensureDirectories (Work.change_eq_ok hensure)))
  have hlanding : t₁.landing source ((stagingPath directory).join name) =
      (stagingPath directory).join name := by
    unfold Tree.landing
    split
    · next hdir =>
      exact absurd (Tree.isDirectory_eq_true_iff.mp hdir).2 (hstaged₁.not_directory hnames hname)
    · rfl
  have hrun := Work.change_eq_ok hcopy
  rw [Tree.copy_eq, hlanding] at hrun
  obtain ⟨content, -, hwrite⟩ := Tree.copyTo_eq_ok hrun
  exact holds_write hwrite

end Holds

/-- **What staging leaves**, when it starts without a staging directory: the files with the names of
the artifacts and the directories above them. -/
theorem staged_stageFiles {a : Artifacts} (hnames : Tidy a.names)
    (hway : directory.parent.Avoids (exportZones directory))
    (hclear : t.Clear (stagingPath directory).place) (h : stageFiles directory a t = .ok () u) :
    Staged directory a.names u ∧
      ∀ name ∈ a.names, Holds u ((stagingPath directory).join name).place := by
  have hstaged : Staged directory a.names t := .of_clear hclear
  refine ⟨left_of_ok h ▸ hstaged.runs hnames hway (runs_stageFiles directory a t), ?_⟩
  obtain ⟨_, t₁, h₁, h⟩ := run_bind_eq_ok.mp h
  obtain ⟨_, t₂, h₂, h⟩ := run_bind_eq_ok.mp h
  have hruns₁ :=
    left_of_ok h₁ ▸ stages_writeDocument.each (stagingPath directory) _ a.documents_subset t
  have hruns₂ := left_of_ok h₂ ▸ stages_writeText.each (stagingPath directory) _ a.texts_subset t₁
  have hruns₃ := left_of_ok h ▸ stages_copyFile.each (stagingPath directory) _ a.copies_subset t₂
  intro name hname
  unfold Artifacts.names at hname
  rcases List.mem_append.mp hname with hname | hname
  · rcases List.mem_append.mp hname with hname | hname
    · exact ((holds_writeDocuments h₁ name hname).runs hruns₂).runs hruns₃
    · exact (holds_writeTexts h₂ name hname).runs hruns₃
  · have hstaged₂ := (hstaged.runs hnames hway hruns₁).runs hnames hway hruns₂
    refine holds_writeEach stages_copyFile (fun copy hcopy t u ht hrun => ?_) hstaged₂ h name hname
    have hkey := a.copies_subset (List.mem_map_of_mem hcopy)
    exact ⟨holds_copyFile hnames hway hkey ht hrun,
      left_of_ok hrun ▸ ht.runs hnames hway (stages_copyFile hkey copy.2 t)⟩

/-- What lies in a zone that no name leads to stays as it is. -/
theorem Writes.frame {names : List String} {z q : Place} (hnames : Tidy names)
    (hz : Tree.Apart (stagingPath directory).place z)
    (havoids : ∀ name ∈ names, ((stagingPath directory).join name).Avoids [z])
    (hw : Writes (stagingPath directory) names t u) (hq : z <+: q) : u.get? q = t.get? q := by
  cases hw with
  | @grow _ name hname hg =>
    rcases hg q with hsame | ⟨hpass, -⟩
    · exact hsame
    · exact absurd hq (havoids name hname q (hpass.mono (Path.parent_prefix _)) z
        List.mem_cons_self)
  | @put name c hname hplace hroom =>
    have hne : q ≠ ((stagingPath directory).join name).place := by
      rintro rfl
      exact havoids name hname _ (Path.passes_place _) z List.mem_cons_self hq
    rw [Tree.get?_set hroom, if_neg hne]
  | @putInto name source c hname hdir hsource hroom =>
    have hlast := Path.staysInside_name (Tree.name_ne_up_of_file hsource)
    have hinside : (stagingPath directory).place <+:
        (((stagingPath directory).join name).join source.name).place := by
      refine List.IsPrefix.trans ?_ (Path.prefix_place_append hlast)
      rw [hnames.place_join hname]
      exact List.prefix_append _ _
    have hne : q ≠ (((stagingPath directory).join name).join source.name).place := by
      rintro rfl
      exact hz.not_within hinside hq
    rw [Tree.get?_set hroom, if_neg hne]

theorem Writes.frame_runs {names : List String} {z q : Place} (hnames : Tidy names)
    (hz : Tree.Apart (stagingPath directory).place z)
    (havoids : ∀ name ∈ names, ((stagingPath directory).join name).Avoids [z])
    (hruns : ReflTransGen (Writes (stagingPath directory) names) t u) (hq : z <+: q) :
    u.get? q = t.get? q := by
  induction hruns with
  | refl => rfl
  | tail _ hw ih => exact (hw.frame hnames hz havoids hq).trans ih

/-! ## The swap -/

/-- The export is in its place, and nothing else of it is left. -/
def Swapped (directory : Path) (t u : Tree) : Prop :=
  ∀ q, u.get? q =
    if directory.place <+:
      q then t.get? ((stagingPath directory).place ++ q.drop directory.place.length)
    else if (stagingPath directory).place <+: q ∨ (backupPath directory).place <+: q then none
    else t.get? q

/-- The staged files can be swapped in. -/
structure Swappable (directory : Path) (t : Tree) : Prop where
  named : Tree.isNamed directory
  noNull : Tree.hasNull directory = false
  way : directory.parent.Avoids (exportZones directory)
  staging : t.locate (stagingPath directory) = .ok (stagingPath directory).place
  ready : t.get? (stagingPath directory).place = some .directory
  aside : t.Clear (backupPath directory).place
  free : ∀ c, t.get? directory.place ≠ some (.file c)

section Swap

theorem isNamed_withName {name : String} {hpart : IsPart name} (h : 2 < name.length) :
    Tree.isNamed (directory.withName name hpart) := by
  have hne : name ≠ "" := by
    rintro rfl
    exact absurd h (by decide)
  simp [Tree.isNamed, hne, ne_up_of_length h]

theorem isNamed_stagingPath (directory : Path) : Tree.isNamed (stagingPath directory) :=
  isNamed_withName (by rw [length_stagingName]; omega)

theorem isNamed_backupPath (directory : Path) : Tree.isNamed (backupPath directory) :=
  isNamed_withName (by rw [length_backupName]; omega)

/-- The directory of the export can be walked to, so that only a long name keeps
one from its entries. -/
theorem Swappable.locate_cases (h : Swappable directory t) {p : Path}
    (hp : p.parent = directory.parent) (hne : p.parts ≠ []) (hnull : Tree.hasNull p = false) :
    t.locate p = .ok p.place ∨ t.locate p = .error .nameTooLong := by
  obtain ⟨-, hwalk, -⟩ := Tree.locate_eq_ok_iff.mp h.staging
  obtain ⟨hparent, hdir⟩ := hwalk.parent (parts_stagingPath directory)
  rw [stagingPath, Path.parent_withName, ← hp] at hparent hdir
  exact Tree.locate_of_parent hne hparent hdir hnull

theorem Swappable.export_cases (h : Swappable directory t) :
    t.locate directory = .ok directory.place ∨ t.locate directory = .error .nameTooLong :=
  h.locate_cases rfl (Path.parts_ne_nil_of_name (name_ne_of_isNamed h.named)) h.noNull

/-- The directories around the export are the same in two trees, so its paths
can be looked at alike. -/
theorem Swappable.locate_export (h : Swappable directory t)
    (hu : Tree.AgreeOutside (exportZones directory) t u) :
    u.locate directory = t.locate directory :=
  (hu.locate h.way).symm

theorem Swappable.locate_staging (h : Swappable directory t)
    (hu : Tree.AgreeOutside (exportZones directory) t u) :
    u.locate (stagingPath directory) = .ok (stagingPath directory).place :=
  (hu.locate (by rw [stagingPath, Path.parent_withName]; exact h.way)).symm.trans h.staging

theorem Swappable.locate_backup (h : Swappable directory t)
    (hu : Tree.AgreeOutside (exportZones directory) t u) :
    u.locate (backupPath directory) = t.locate (backupPath directory) :=
  (hu.locate (by rw [backupPath, Path.parent_withName]; exact h.way)).symm

/-- The staged files are moved to a place where nothing is. -/
theorem Swappable.move_staging (h : Swappable directory t)
    (hu : Tree.AgreeOutside (exportZones directory) t u)
    (hexport : t.locate directory = .ok directory.place)
    (hstaging : u.get? (stagingPath directory).place = some .directory)
    (hnone : u.get? directory.place = none) :
    u.move (stagingPath directory) directory =
      .ok (u.moveEntries (stagingPath directory).place directory.place) :=
  Tree.move_of_none (h.locate_staging hu) ((h.locate_export hu).trans hexport)
    ⟨isNamed_stagingPath directory, h.named⟩ hstaging hnone

/-- The export is a directory that is there, or it is not there. -/
theorem Swappable.there (h : Swappable directory t)
    (hexport : t.locate directory = .ok directory.place) :
    (t.get? directory.place = some .directory ∧ t.isThere directory = .ok true) ∨
      (t.get? directory.place = none ∧ t.isThere directory = .ok false) := by
  have hask : t.isThere directory = .ok (t.get? directory.place).isSome := by
    unfold Tree.isThere Tree.ask
    rw [Tree.inspect_eq, hexport]
    dsimp only
    cases t.get? directory.place <;> rfl
  rcases he : t.get? directory.place with _ | (_ | c)
  · exact .inr ⟨rfl, by rw [hask, he]; rfl⟩
  · exact .inl ⟨rfl, by rw [hask, he]; rfl⟩
  · exact absurd he (h.free c)

theorem agree_moveEntries {source target : Place} (h : Tree.Apart source target)
    (hsource : source ∈ exportZones directory) (htarget : target ∈ exportZones directory)
    (hu : Tree.AgreeOutside (exportZones directory) t u) :
    Tree.AgreeOutside (exportZones directory) t (u.moveEntries source target) := fun q hq => by
  rw [Tree.get?_moveEntries_outside h (hq source hsource) (hq target htarget), hu q hq]

/-- **The swap.** Nothing is in the place of the export, or it is put aside first. -/
theorem swapIn_of_locate (h : Swappable directory t)
    (hexport : t.locate directory = .ok directory.place)
    (hbackup : t.locate (backupPath directory) = .ok (backupPath directory).place) :
    ∃ v, swapIn directory t = .ok () v ∧ Swapped directory t v := by
  have hES := apart_export_staging h.named
  have hEP := apart_export_backup h.named
  have hSP := apart_staging_backup directory
  have hnone : t.get? (backupPath directory).place = none := h.aside _ List.prefix_rfl
  have hsame : Tree.AgreeOutside (exportZones directory) t t := fun _ _ => rfl
  rcases h.there hexport with ⟨hdir, hthere⟩ | ⟨hfree, hthere⟩
  · have hget := Tree.get?_moveEntries hEP (Tree.up_of_locate hbackup hEP.symm.ne_nil)
    have hagree := agree_moveEntries hEP (by simp [exportZones]) (by simp [exportZones]) hsame
    have hmove :=
      Tree.move_of_none hexport hbackup ⟨h.named, isNamed_backupPath directory⟩ hdir hnone
    generalize t.moveEntries directory.place (backupPath directory).place = t₁ at hmove hget hagree
    have hmove₁ := h.move_staging hagree hexport
      (by rw [hget, if_neg hSP.2, if_neg hES.1]; exact h.ready)
      (by rw [hget, if_neg hEP.2, if_pos List.prefix_rfl])
    have hup₁ := Tree.up_of_locate ((h.locate_export hagree).trans hexport) hES.ne_nil
    have hget₁ := Tree.get?_moveEntries hES.symm hup₁
    have hagree₁ :=
      agree_moveEntries hES.symm (by simp [exportZones]) (by simp [exportZones]) hagree
    generalize t₁.moveEntries (stagingPath directory).place directory.place =
      t₂ at hmove₁ hget₁ hagree₁
    -- What was put aside is there, and is removed.
    have hdir₂ : t₂.get? (backupPath directory).place = some .directory := by
      rw [hget₁, if_neg hEP.1, if_neg hSP.1, hget, if_pos List.prefix_rfl, List.drop_length,
        List.append_nil, hdir]
    refine ⟨t₂.erase (backupPath directory).place, ?_, fun q => ?_⟩
    · rw [swapIn_eq, hthere]
      simp only [hmove]
      rw [settle_eq, hmove₁]
      exact removeIfThere_of_directory ((h.locate_backup hagree₁).trans hbackup) hdir₂
    · have hbelow : ∀ r, ¬ (backupPath directory).place <+: (stagingPath directory).place ++ r ∧
          ¬ directory.place <+: (stagingPath directory).place ++ r := fun r =>
        ⟨hSP.not_within (List.prefix_append _ _), hES.symm.not_within (List.prefix_append _ _)⟩
      rw [Tree.get?_erase t₂ hEP.symm.ne_nil, hget₁, hget, hget]
      by_cases hp : (backupPath directory).place <+: q
      · simp [hp, hEP.symm.not_within hp]
      · by_cases he : directory.place <+: q <;> simp [hp, he, hbelow]
  · have hmove := h.move_staging hsame hexport h.ready hfree
    have hget := Tree.get?_moveEntries hES.symm (Tree.up_of_locate hexport hES.ne_nil)
    have hagree := agree_moveEntries hES.symm (by simp [exportZones]) (by simp [exportZones]) hsame
    generalize t.moveEntries (stagingPath directory).place directory.place = t₁ at hmove hget hagree
    refine ⟨t₁, ?_, fun q => ?_⟩
    · rw [swapIn_eq, hthere]
      simp only
      rw [settle_eq, hmove]
      refine removeIfThere_of_none ((h.locate_backup hagree).trans hbackup) ?_
      rw [hget, if_neg hEP.1, if_neg hSP.1, hnone]
    · rw [hget]
      by_cases hp : (backupPath directory).place <+: q
      · simp [hp, hEP.symm.not_within hp, h.aside q hp]
      · simp [hp]

theorem Swappable.locate_of_ne (h : Swappable directory t)
    (hlong : t.locate directory ≠ .error .nameTooLong ∧
      t.locate (backupPath directory) ≠ .error .nameTooLong) :
    t.locate directory = .ok directory.place ∧
      t.locate (backupPath directory) = .ok (backupPath directory).place := by
  have hbackup := h.locate_cases (p := backupPath directory) Path.parent_withName
    (Path.parts_ne_nil_of_name (name_ne_of_isNamed (isNamed_backupPath directory)))
    (noNull_backupPath h.noNull)
  exact ⟨h.export_cases.resolve_right hlong.1, hbackup.resolve_right hlong.2⟩

theorem swapIn_of_nameTooLong (h : Swappable directory t)
    (hlong : t.locate directory = .error .nameTooLong ∨
      t.locate (backupPath directory) = .error .nameTooLong) :
    ∃ v, swapIn directory t = .error (.file .nameTooLong) v := by
  by_cases hexport : t.locate directory = .error .nameTooLong
  · refine ⟨t, ?_⟩
    rw [swapIn_eq]
    unfold Tree.isThere Tree.ask
    rw [Tree.inspect_eq, hexport]
  have hbackup := hlong.resolve_left hexport
  have hplace : t.locate directory = .ok directory.place := h.export_cases.resolve_right hexport
  have hES := apart_export_staging h.named
  have hsame : Tree.AgreeOutside (exportZones directory) t t := fun _ _ => rfl
  rw [swapIn_eq]
  rcases h.there hplace with ⟨hdir, hthere⟩ | ⟨hfree, hthere⟩
  · refine ⟨t, ?_⟩
    simp only [hthere, Tree.move_of_nameTooLong hplace hbackup]
  · have hagree := agree_moveEntries hES.symm (by simp [exportZones]) (by simp [exportZones]) hsame
    simp only [hthere]
    rw [settle_eq, h.move_staging hsame hplace h.ready hfree]
    exact ⟨_, removeIfThere_of_nameTooLong ((h.locate_backup hagree).trans hbackup)⟩

theorem Swappable.swapped (h : Swappable directory t) (hrun : swapIn directory t = .ok () u) :
    Swapped directory t u := by
  by_cases hlong : t.locate directory = .error .nameTooLong ∨
      t.locate (backupPath directory) = .error .nameTooLong
  · obtain ⟨v, hv⟩ := swapIn_of_nameTooLong h hlong
    rw [hv] at hrun
    cases hrun
  · obtain ⟨hexport, hbackup⟩ := h.locate_of_ne (not_or.mp hlong)
    obtain ⟨v, hv, hswapped⟩ := swapIn_of_locate h hexport hbackup
    rw [hv] at hrun
    cases hrun
    exact hswapped

end Swap

end Addon.Build
