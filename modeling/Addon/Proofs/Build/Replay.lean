import Addon.Proofs.Build.Staging
import Addon.Proofs.Build.TwoRuns

/-!
# Replay — writing the same artifacts twice

The same artifacts are written in two trees that agree outside the directories of the export and one
other zone. Leftovers of earlier runs are cleared first, staging looks at nothing that differs, and
the swap fails in both trees or in neither. So both runs fail alike, or leave the same export.

## The architecture

* **`Work.change_twin`** — changes that end alike; from it, one statement for each part of staging.
* **`Beside`** — a further zone in which the trees may differ.
* **`swappable_of_stageFiles`** — what is staged can be swapped in.
* **`writeExport_stages`** — the trees between the stages of a successful export.
* **`Exported`**, **`writeExport_eq_ok`** — what a successful export leaves, in one tree.
* **`writeExport_of_null`** — a path with a null character fails in every tree.
* **`writeExport_twin`** — two exports of the same artifacts.
-/

namespace Addon.Build

open File Relation

variable {directory : Path} {t₁ t₂ : Tree}

/-! ## Work in two trees

Trees that agree outside of some zones are changed alike outside of them. -/

namespace Work

variable {α : Type} {R : Tree → Tree → Prop}

theorem look_twin {f : Tree → Attempt α} (hf : f t₁ = f t₂) (h : R t₁ t₂) :
    Twin R (look f t₁) (look f t₂) := by
  unfold look
  rw [← hf]
  cases f t₁ with
  | error e => exact .error e _ _
  | ok a => exact .ok a h

theorem twins_look {a : Attempt α} : Twins R (look fun _ => a) := fun _ _ h =>
  look_twin rfl h

theorem change_twin {f : Tree → Except FileError Tree} (hf : Tree.Alike R (f t₁) (f t₂)) :
    Twin R (change f t₁) (change f t₂) := by
  rw [run_change, run_change]
  cases h₁ : f t₁ <;> cases h₂ : f t₂ <;> rw [h₁, h₂] at hf <;> cases hf
  · exact .error _ _ _
  · exact .ok () ‹_›

theorem twins_change {f : Tree → Except FileError Tree}
    (h : ∀ t₁ t₂, R t₁ t₂ → Tree.Alike R (f t₁) (f t₂)) : Twins R (change f) := fun t₁ t₂ ht =>
  change_twin (h t₁ t₂ ht)

end Work

/-! ## Staging -/

section Staging

variable {zones : List Place} {p : Path} {name : String}

theorem twins_ensure (hp : p.Avoids zones) :
    Twins (Tree.AgreeOutside zones) (Work.change fun t => t.ensureDirectories p.parent) :=
  Work.twins_change fun _ _ h => Tree.alike_ensureDirectories h hp.parent.parent (.inl hp.parent)

theorem twins_writeText (hp : p.Avoids zones) (text : String) :
    Twins (Tree.AgreeOutside zones) (writeText p text) := by
  have hwrite : ∀ c, Twins (Tree.AgreeOutside zones) (Work.change fun t => t.write p c) :=
    fun c => Work.twins_change fun _ _ h => Tree.alike_write h hp c
  refine (twins_ensure hp).bind fun _ => ?_
  split
  · exact hwrite _
  · exact (hwrite _).bind fun _ => twins_throw _

theorem twins_writeDocument (hp : p.Avoids zones) (d : Document) :
    Twins (Tree.AgreeOutside zones) (writeDocument p d) :=
  Work.twins_look.bind fun _ => twins_writeText hp _

/-- The name of a file leads out of no directory, so that a copy avoids what
its directory avoids. -/
theorem avoids_join_name (source : Path) (hp : p.Avoids zones) (hz : ∀ z ∈ zones, ¬ p.place <+: z) :
    (p.join source.name).Avoids zones := by
  by_cases hname : source.name = ""
  · have hparts : (p.join source.name).parts = p.parts := by
      rw [hname]
      unfold Path.join
      rw [Path.parts_append (by decide)]
      exact List.append_nil _
    exact hp.of_prefix (hparts ▸ List.prefix_rfl)
  rintro q ⟨before, hb, rfl⟩ z hmem hzq
  rw [parts_join (Path.isPart_name (Path.parts_ne_nil_of_name hname))] at hb
  rcases List.prefix_concat_iff.mp hb with rfl | hb
  · have hplace := hp _ p.passes_place z hmem
    rw [List.foldl_append, List.foldl_cons, List.foldl_nil] at hzq
    change z <+: Path.step p.place source.name at hzq
    unfold Path.step at hzq
    split at hzq
    · exact hplace (hzq.trans (List.dropLast_prefix _))
    · rcases List.prefix_concat_iff.mp hzq with rfl | hzq
      · exact hz _ hmem (List.prefix_append _ _)
      · exact hplace hzq
  · exact hp _ ⟨before, hb, rfl⟩ z hmem hzq

theorem twins_copyFile {source : Path} (hp : p.Avoids zones) (hz : ∀ z ∈ zones, ¬ p.place <+: z)
    (hsource : source.Avoids zones) : Twins (Tree.AgreeOutside zones) (copyFile p source) :=
  (twins_ensure hp).bind fun _ => Work.twins_change fun _ _ h =>
    Tree.alike_copy h hsource hp fun _ => avoids_join_name _ hp hz

theorem twins_writeEach {α : Type} {write : Path → α → Work Unit} {items : Fields α}
    (h : ∀ item ∈ items, Twins (Tree.AgreeOutside zones) (write (p.join item.1) item.2)) :
    Twins (Tree.AgreeOutside zones) (writeEach write p items) := by
  induction items with
  | nil => exact twins_pure ()
  | cons item rest ih =>
    obtain ⟨hitem, hrest⟩ := List.forall_mem_cons.mp h
    exact hitem.bind fun _ => ih hrest

end Staging

theorem Tidy.avoids {names : List String} (h : Tidy names) {name : String} (hname : name ∈ names)
    {z : Place} (hz : Tree.Apart (stagingPath directory).place z)
    (hparent : directory.parent.Avoids [z]) : ((stagingPath directory).join name).Avoids [z] := by
  rintro q ⟨before, hb, rfl⟩ y hy
  obtain rfl := List.mem_singleton.mp hy
  rcases h.passes_join hname (parts_stagingPath directory) hb with hpass | ⟨rest, -, -, hplace⟩
  · rw [stagingPath, Path.parent_withName] at hpass
    exact hparent _ hpass y hy
  · rw [hplace]
    exact hz.not_within (List.prefix_append _ _)

/-- A further zone, beside those of the export, in which two trees may differ. -/
structure Beside (directory : Path) (other : Place) : Prop where
  staging : Tree.Apart (stagingPath directory).place other
  backup : Tree.Apart (backupPath directory).place other
  export' : Tree.Apart directory.place other
  way : directory.parent.Avoids [other]

theorem Beside.avoids {other : Place} (h : Beside directory other)
    (hway : directory.parent.Avoids (exportZones directory)) :
    directory.parent.Avoids (other :: exportZones directory) := fun q hq =>
  List.forall_mem_cons.mpr ⟨h.way q hq other List.mem_cons_self, hway q hq⟩

section WriteExport

variable {other : Place} {a : Artifacts}

theorem twins_stageFiles (h₁ : Sited directory t₁) (hother : Beside directory other)
    (hnames : Tidy a.names) (hcopies : ∀ copy ∈ a.copies, copy.2.Avoids [directory.place, other]) :
    Twins (Tree.AgreeOutside [directory.place, other]) (stageFiles directory a) := by
  have hES := apart_export_staging h₁.named
  have havoids : ∀ name ∈ a.names,
      ((stagingPath directory).join name).Avoids [directory.place, other] := by
    intro name hname q hq z hz
    rcases List.mem_pair.mp hz with rfl | rfl
    · exact hnames.avoids hname hES.symm (h₁.way.subset (by simp [exportZones])) q hq
        _ List.mem_cons_self
    · exact hnames.avoids hname hother.staging hother.way q hq _ List.mem_cons_self
  have hbelow : ∀ name ∈ a.names, ∀ z ∈ [directory.place, other],
      ¬ ((stagingPath directory).join name).place <+: z := by
    intro name hname z hz hp
    have hstaging : (stagingPath directory).place <+: z := by
      rw [hnames.place_join hname] at hp
      exact (List.prefix_append _ _).trans hp
    rcases List.mem_pair.mp hz with rfl | rfl
    · exact hES.2 hstaging
    · exact hother.staging.1 hstaging
  exact (twins_writeEach fun d hd =>
      twins_writeDocument (havoids _ (a.documents_subset (List.mem_map_of_mem hd))) _).bind fun _ =>
    (twins_writeEach fun f hf =>
      twins_writeText (havoids _ (a.texts_subset (List.mem_map_of_mem hf))) _).bind fun _ =>
    twins_writeEach fun copy hcopy =>
      have hkey := a.copies_subset (List.mem_map_of_mem hcopy)
      twins_copyFile (havoids _ hkey) (hbelow _ hkey) (hcopies copy hcopy)

variable {t u v : Tree}

/-- What is staged after clearing can be swapped in. -/
theorem swappable_of_stageFiles (h : Sited directory t) (hnames : Tidy a.names)
    (hfirst : StartsPlain a)
    (hlong : t.locate (stagingPath directory) ≠ .error .nameTooLong)
    (hcleared : Cleared directory t u)
    (hrun : stageFiles directory a u = .ok () v) : Swappable directory v := by
  have hready := ready_stageFiles hfirst hrun
  have hruns := left_of_ok hrun ▸ runs_stageFiles directory a u
  have hES := apart_export_staging h.named
  have hEP := apart_export_backup h.named
  have hSP := apart_staging_backup directory
  have hadmissible : Tree.Admissible (stagingPath directory) := by
    refine ⟨noNull_stagingPath h.noNull, Nat.not_lt.mp fun hsize => hlong ?_⟩
    unfold Tree.locate
    rw [if_neg (by simp [noNull_stagingPath h.noNull]), if_pos hsize]
  have hframe : ∀ z, Tree.Apart (stagingPath directory).place z → z ∈ exportZones directory →
      ∀ q, z <+: q → v.get? q = u.get? q := fun z hz hmem q hq =>
    Writes.frame_runs hnames hz (fun name hname => hnames.avoids hname hz
      (h.way.subset (by simpa using hmem))) hruns hq
  refine ⟨h.named, h.noNull, h.way, Tree.locate_eq_ok_iff.mpr ⟨hadmissible, hready.way, rfl⟩,
    hready.directories _ List.prefix_rfl, fun q hq => ?_, fun c => ?_⟩
  · rw [hframe _ hSP (by simp [exportZones]) q hq, hcleared, if_pos (.inr hq)]
  · rw [hframe _ hES.symm (by simp [exportZones]) _ List.prefix_rfl, hcleared, if_neg]
    · exact h.free _ (by simp [exportZones]) c
    · simp [hES.2, hEP.2]

/-- What is in an export, and what is left beside it. -/
structure Exported (directory : Path) (names : List String) (v : Tree) : Prop where
  only : ∀ q e, v.get? (directory.place ++ q) = some e → ∃ name ∈ names,
    (e = .directory ∧ q <+: way name ∧ q ≠ way name) ∨ ((∃ c, e = .file c) ∧ q = way name)
  all : ∀ name ∈ names, ∃ c, v.get? (directory.place ++ way name) = some (.file c)
  staging : v.Clear (stagingPath directory).place
  backup : v.Clear (backupPath directory).place

theorem Swapped.exported (hnamed : Tree.isNamed directory) (hnames : Tidy a.names)
    (hstaged : Staged directory a.names u)
    (hholds : ∀ name ∈ a.names, Holds u ((stagingPath directory).join name).place)
    (h : Swapped directory u v) : Exported directory a.names v := by
  have hES := apart_export_staging hnamed
  have hEP := apart_export_backup hnamed
  have hget : ∀ q, v.get? (directory.place ++ q) = u.get? ((stagingPath directory).place ++ q) :=
    fun q => by rw [h, if_pos (List.prefix_append _ _), List.drop_left]
  refine ⟨fun q e he => hstaged q e (hget q ▸ he), fun name hname => ?_, fun q hq => ?_,
    fun q hq => ?_⟩
  · obtain ⟨c, hc⟩ := hholds name hname
    rw [hnames.place_join hname] at hc
    exact ⟨c, (hget _).trans hc⟩
  · rw [h, if_neg (hES.symm.not_within hq), if_pos (.inl hq)]
  · rw [h, if_neg (hEP.symm.not_within hq), if_pos (.inr hq)]

/-- The stages of a successful export: it was cleared, staged and swapped in. -/
theorem writeExport_stages {written : List String} (h : Sited directory t) (hnames : Tidy a.names)
    (hfirst : StartsPlain a) (hrun : writeExport directory a t = .ok written v) :
    written = sortedNames a.names ∧ ∃ t₁ t₂, Cleared directory t t₁ ∧
      t₁.Clear (stagingPath directory).place ∧ stageFiles directory a t₁ = .ok () t₂ ∧
      Swapped directory t₂ v := by
  rw [writeExport_eq (name_ne_of_isNamed h.named)] at hrun
  obtain ⟨_, t₁, hclear, hrun⟩ := run_bind_eq_ok.mp hrun
  obtain ⟨_, t₂, hstage, hrun⟩ := run_bind_eq_ok.mp hrun
  obtain ⟨_, t₃, hswap, hrun⟩ := run_bind_eq_ok.mp hrun
  cases hrun
  have hcleared := h.cleared hclear
  have hswappable := swappable_of_stageFiles h hnames hfirst (h.staging_ne hclear) hcleared hstage
  have hempty : t₁.Clear (stagingPath directory).place := fun q hq => by
    rw [hcleared, if_pos (.inl hq)]
  exact ⟨rfl, t₁, t₂, hcleared, hempty, hstage, hswappable.swapped hswap⟩

/-- **A successful export** has the files of the artifacts and nothing else. -/
theorem writeExport_eq_ok {written : List String} (h : Sited directory t)
    (hother : Beside directory other) (hnames : Tidy a.names) (hfirst : StartsPlain a)
    (hrun : writeExport directory a t = .ok written v) :
    written = sortedNames a.names ∧ Exported directory a.names v ∧
      ∀ q, other <+: q → v.get? q = t.get? q := by
  obtain ⟨rfl, t₁, t₂, hcleared, hempty, hstage, hswapped⟩ :=
    writeExport_stages h hnames hfirst hrun
  obtain ⟨hstaged, hholds⟩ := staged_stageFiles hnames h.way hempty hstage
  refine ⟨rfl, hswapped.exported h.named hnames hstaged hholds, fun q hq => ?_⟩
  have hruns := left_of_ok hstage ▸ runs_stageFiles directory a t₁
  rw [hswapped, if_neg (hother.export'.symm.not_within hq),
    if_neg (by simp [hother.staging.symm.not_within hq, hother.backup.symm.not_within hq]),
    Writes.frame_runs hnames hother.staging
      (fun name hname => hnames.avoids hname hother.staging hother.way) hruns hq, hcleared,
    if_neg (by simp [hother.staging.symm.not_within hq, hother.backup.symm.not_within hq])]

/-! ## Two exports -/

theorem clearStale_twin (h₁ : Sited directory t₁) (h₂ : Sited directory t₂)
    (hother : Beside directory other)
    (hagree : Tree.AgreeOutside (other :: exportZones directory) t₁ t₂) :
    Twin (fun c₁ c₂ => Cleared directory t₁ c₁ ∧ Cleared directory t₂ c₂)
      (clearStale directory t₁) (clearStale directory t₂) := by
  have hparent := hother.avoids h₁.way
  have hS : t₁.locate (stagingPath directory) = t₂.locate (stagingPath directory) :=
    hagree.locate (by rwa [stagingPath, Path.parent_withName])
  have hP : t₁.locate (backupPath directory) = t₂.locate (backupPath directory) :=
    hagree.locate (by rwa [backupPath, Path.parent_withName])
  by_cases hlong : t₁.locate (stagingPath directory) = .error .nameTooLong ∨
      t₁.locate (backupPath directory) = .error .nameTooLong
  · obtain ⟨c₁, hc₁⟩ := clearStale_of_eq h₁ hlong
    obtain ⟨c₂, hc₂⟩ := clearStale_of_eq h₂ (by rwa [hS, hP] at hlong)
    rw [hc₁, hc₂]
    exact .error _ _ _
  · obtain ⟨hstaging, hbackup⟩ := not_or.mp hlong
    obtain ⟨c₁, hc₁, hcleared₁⟩ := clearStale_of_ne h₁ hstaging hbackup
    obtain ⟨c₂, hc₂, hcleared₂⟩ := clearStale_of_ne h₂ (hS ▸ hstaging) (hP ▸ hbackup)
    rw [hc₁, hc₂]
    exact .ok () ⟨hcleared₁, hcleared₂⟩

theorem Cleared.agree {u₁ u₂ : Tree} (h₁ : Cleared directory t₁ u₁) (h₂ : Cleared directory t₂ u₂)
    (hagree : Tree.AgreeOutside (other :: exportZones directory) t₁ t₂) :
    Tree.AgreeOutside [directory.place, other] u₁ u₂ := by
  intro q hq
  rw [h₁, h₂]
  split_ifs with hzone
  · rfl
  · refine hagree q fun z hz hzq => ?_
    simp only [exportZones, List.mem_cons, List.not_mem_nil, or_false] at hz
    rcases hz with rfl | rfl | rfl | rfl
    · exact hq _ (by simp) hzq
    · exact hq _ (by simp) hzq
    · exact hzone (.inl hzq)
    · exact hzone (.inr hzq)

theorem swapIn_twin (h₁ : Swappable directory t₁) (h₂ : Swappable directory t₂)
    (hother : Beside directory other) (hagree : Tree.AgreeOutside [directory.place, other] t₁ t₂) :
    Twin (Tree.AgreeOutside [other]) (swapIn directory t₁) (swapIn directory t₂) := by
  have hES := apart_export_staging h₁.named
  have hparent : directory.parent.Avoids [directory.place, other] :=
    (hother.avoids h₁.way).subset (by simp [exportZones])
  have hE : t₁.locate directory = t₂.locate directory := hagree.locate hparent
  have hP : t₁.locate (backupPath directory) = t₂.locate (backupPath directory) :=
    hagree.locate (by rwa [backupPath, Path.parent_withName])
  by_cases hlong : t₁.locate directory = .error .nameTooLong ∨
      t₁.locate (backupPath directory) = .error .nameTooLong
  · obtain ⟨c₁, hc₁⟩ := swapIn_of_nameTooLong h₁ hlong
    obtain ⟨c₂, hc₂⟩ := swapIn_of_nameTooLong h₂ (by rwa [hE, hP] at hlong)
    rw [hc₁, hc₂]
    exact .error _ _ _
  · obtain ⟨hexport, hbackup⟩ := h₁.locate_of_ne (not_or.mp hlong)
    obtain ⟨c₁, hc₁, hswapped₁⟩ := swapIn_of_locate h₁ hexport hbackup
    obtain ⟨c₂, hc₂, hswapped₂⟩ := swapIn_of_locate h₂ (hE ▸ hexport) (hP ▸ hbackup)
    rw [hc₁, hc₂]
    refine .ok () fun q hq => ?_
    have hq := hq other List.mem_cons_self
    rw [hswapped₁, hswapped₂]
    -- The new export is what was staged, and that is the same in both trees.
    split_ifs with hzone hgone
    · refine hagree _ fun z hz => ?_
      have hstaged :=
        List.prefix_append (stagingPath directory).place (q.drop directory.place.length)
      rcases List.mem_pair.mp hz with rfl | rfl
      · exact hES.symm.not_within hstaged
      · exact hother.staging.not_within hstaged
    · rfl
    · refine hagree _ fun z hz => ?_
      rcases List.mem_pair.mp hz with rfl | rfl
      · exact hzone
      · exact hq

theorem hasNull_withName_of (hnull : Tree.hasNull directory = true) {name : String}
    {hpart : IsPart name}
    (hname : Char.ofNat 0 ∈ directory.name.toList → Char.ofNat 0 ∈ name.toList) :
    Tree.hasNull (directory.withName name hpart) = true := by
  by_contra hfalse
  rw [Bool.not_eq_true, Tree.hasNull_eq_false_iff] at hfalse
  refine absurd (Tree.hasNull_eq_false_iff.mpr fun part hmem hzero => ?_) (by rw [hnull]; decide)
  rw [Path.parts_eq_concat (List.ne_nil_of_mem hmem)] at hmem
  rcases List.mem_append.mp hmem with hmem | hmem
  · exact hfalse part (List.mem_append_left _ hmem) hzero
  · rw [List.mem_singleton.mp hmem] at hzero
    exact hfalse name (List.mem_append_right _ List.mem_cons_self) (hname hzero)

theorem hasNull_stagingPath (hnull : Tree.hasNull directory = true) :
    Tree.hasNull (stagingPath directory) = true :=
  hasNull_withName_of hnull fun h => by simp [toString, h]

theorem hasNull_backupPath (hnull : Tree.hasNull directory = true) :
    Tree.hasNull (backupPath directory) = true :=
  hasNull_withName_of hnull fun h => by simp [toString, h]

/-- A directory with a null character in its path is never written, whatever the tree. -/
theorem writeExport_of_null (hname : directory.name ≠ "") (hnull : Tree.hasNull directory = true)
    (hfirst : StartsPlain a) :
    ∃ e, ∀ t, writeExport directory a t = .error e t := by
  obtain ⟨name, d, rest, hdocuments, hplain, -⟩ := hfirst
  have hremove : ∀ p t, Tree.hasNull p = true → removeIfThere p t = .ok () t := by
    intro p t hp
    refine removeIfThere_of_obstacle (by simp : Obstacle.nullCharacter ≠ .nameTooLong) ?_
    unfold Tree.locate
    rw [if_pos hp]
  have hclear : ∀ t, clearStale directory t = .ok () t := fun t =>
    run_bind_eq_ok.mpr ⟨(), t, hremove _ t (hasNull_stagingPath hnull),
      hremove _ t (hasNull_backupPath hnull)⟩
  have hparent : ((stagingPath directory).join name).parent.parts =
      (stagingPath directory).parts := by
    change ((stagingPath directory).join name).parts.dropLast = _
    rw [parts_join hplain, List.dropLast_concat]
  have hensure : ∀ t : Tree, t.ensureDirectories ((stagingPath directory).join name).parent =
      .error (.nullCharacter .create) := fun t =>
    Tree.ensureDirectories_of_null (by
      unfold Tree.hasNull
      rw [hparent]
      exact hasNull_stagingPath hnull)
  -- The first document is given up, or the directory for it cannot be made.
  have hdocument : ∃ e, ∀ t, writeDocument ((stagingPath directory).join name) d t =
      .error e t := by
    unfold writeDocument Work.look
    cases hd : Attempt.ofWrite d with
    | error e => exact ⟨e, fun t => run_bind_eq_error.mpr (.inl rfl)⟩
    | ok text =>
      refine ⟨.file (.nullCharacter .create),
        fun t => run_bind_eq_error.mpr (.inr ⟨text, t, rfl, ?_⟩)⟩
      refine run_bind_eq_error.mpr (.inl ?_)
      rw [Work.run_change, hensure]
  obtain ⟨e, he⟩ := hdocument
  have hstage : ∀ t, stageFiles directory a t = .error e t := fun t => by
    unfold stageFiles
    rw [hdocuments]
    exact run_bind_eq_error.mpr (.inl (run_bind_eq_error.mpr (.inl (he t))))
  refine ⟨e, fun t => ?_⟩
  rw [writeExport_eq hname]
  exact run_bind_eq_error.mpr (.inr ⟨(), t, hclear t, run_bind_eq_error.mpr (.inl (hstage t))⟩)

/-- **Two exports** of the same artifacts end alike, whatever was in their directories before. -/
theorem writeExport_twin (h₁ : Sited directory t₁) (h₂ : Sited directory t₂)
    (hother : Beside directory other)
    (hagree : Tree.AgreeOutside (other :: exportZones directory) t₁ t₂) (hnames : Tidy a.names)
    (hfirst : StartsPlain a) (hcopies : ∀ copy ∈ a.copies, copy.2.Avoids [directory.place, other]) :
    Twin (Tree.AgreeOutside [other]) (writeExport directory a t₁) (writeExport directory a t₂) := by
  rw [writeExport_eq (name_ne_of_isNamed h₁.named)]
  refine (clearStale_twin h₁ h₂ hother hagree).bind fun _ c₁ c₂ hc₁ hc₂ ⟨hcleared₁, hcleared₂⟩ => ?_
  have hstage := twins_stageFiles h₁ hother hnames hcopies c₁ c₂ (hcleared₁.agree hcleared₂ hagree)
  refine hstage.bind fun _ u₁ u₂ hu₁ hu₂ hu => ?_
  have hswap := swapIn_twin
    (swappable_of_stageFiles h₁ hnames hfirst (h₁.staging_ne hc₁) hcleared₁ hu₁)
    (swappable_of_stageFiles h₂ hnames hfirst (h₂.staging_ne hc₂) hcleared₂ hu₂) hother hu
  exact hswap.bind fun _ v₁ v₂ _ _ hv => .ok _ hv

end WriteExport

end Addon.Build
