import Addon.Proofs.Build.Preparation
import Addon.Proofs.Build.Staging

/-!
# Atomicity — failed builds leave the export as it was

A build that fails before it writes has changed no file. One that fails while it writes the export
has not touched the files of the export before: either the swap has not begun, or it cannot fail any
more. This rests on directories that can be renamed to places where nothing is.

## The architecture

* **`Renames`** — a directory can be renamed, wherever the directories around the export are.
* **`swapIn_error`** — a swap that fails has not begun.
* **`writeExport_error`** — a failed export keeps what **`Guards`** guards.
* **`failed_build_keeps_export`** — failed builds are atomic.
* **`renames_of_plain`**, **`writeExport_of_through`** — paths that can be renamed, and an export
  that fails: the name of one file goes through the name of another.
-/

namespace Addon.Build

open File Relation

/-! ## Renaming -/

/-- Wherever the directories around an export are, a directory can be renamed to a
place where nothing is. -/
def Renames (directory : Path) (before : Tree) (source target : Path) : Prop :=
  ∀ t : Tree, (∀ q, Outside directory q → before.get? q = some .directory →
    t.get? q = some .directory) →
    (∀ r, r <+: source.place → t.get? r = some .directory) → t.get? target.place = none →
      ∃ u, t.move source target = .ok u

variable {directory : Path} {before t u : Tree}

theorem not_within_backup (directory : Path) :
    ¬ (backupPath directory).place <+: directory.place := by
  rw [place_backupPath]
  intro hp
  have hlength := hp.length_le
  rw [List.length_append, List.length_singleton] at hlength
  by_cases hparts : directory.parts = []
  · have hnil : directory.place = [] := by
      unfold Path.place
      rw [hparts]
      rfl
    rw [hnil] at hlength
    simp at hlength
  · rw [Path.place_eq_step hparts] at hp hlength
    unfold Path.step at hp hlength
    split at hp
    · next hup =>
      rw [if_pos hup, List.length_dropLast] at hlength
      omega
    · have hname := List.append_cancel_left (hp.eq_of_length (by simp))
      have := congrArg String.length (List.cons.inj hname).1
      rw [length_backupName] at this
      omega

/-- Where an export can be put aside, it has a name, and the name that it is put
aside under is short. -/
theorem Renames.backup (h : Renames directory before directory (backupPath directory)) :
    Tree.isNamed directory ∧
      ∃ t : Tree, t.locate (backupPath directory) = .ok (backupPath directory).place := by
  have hhole : (backupPath directory).place ≠ [] := (apart_staging_backup directory).symm.ne_nil
  have hget : ∀ q, ((before.erase (backupPath directory).place).pave directory.place).get? q =
      if q <+: directory.place then some .directory
      else if (backupPath directory).place <+: q then none else before.get? q := fun q => by
    rw [Tree.get?_pave, Tree.get?_erase before hhole]
  obtain ⟨u, hmove⟩ := h ((before.erase (backupPath directory).place).pave directory.place)
    (fun q hq hdir => by
      rw [hget]
      split_ifs with h₁ h₂
      · rfl
      · exact absurd h₂ hq.2.2
      · exact hdir)
    (fun r hr => by rw [hget, if_pos hr])
    (by rw [hget, if_neg (not_within_backup directory), if_pos List.prefix_rfl])
  obtain ⟨hplace, hnamed, -⟩ := Tree.move_eq_ok hmove (by rw [hget, if_pos List.prefix_rfl])
    fun heq => not_within_backup directory (heq ▸ List.prefix_rfl)
  exact ⟨hnamed.1, _, hplace⟩

/-! ## The swap -/

/-- A directory that can be looked at is removed if it is there. -/
theorem exists_removeIfThere {p : Path} (hfile : ∀ c, t.get? p.place ≠ some (.file c))
    (hshort : ∃ v : Tree, v.locate p = .ok p.place) : ∃ u, removeIfThere p t = .ok () u := by
  by_cases hthere : t.isThere p = .ok true
  · obtain ⟨hplace, hsome⟩ := Tree.isThere_eq_true_iff.mp hthere
    obtain ⟨e, he⟩ := Option.isSome_iff_exists.mp hsome
    cases e with
    | file c => exact absurd he (hfile c)
    | directory => exact ⟨_, removeIfThere_of_directory hplace he⟩
  · obtain ⟨v, hv⟩ := hshort
    refine ⟨t, ?_⟩
    rw [removeIfThere_eq]
    split
    · next e he => exact absurd he (Tree.isThere_ne_error hv t e)
    · rfl
    · next hok => exact absurd hok hthere

/-- Once the staged files can be renamed, nothing else fails. -/
theorem settle_error {e : Failure} (hnamed : Tree.isNamed directory)
    (hshort : ∃ v : Tree, v.locate (backupPath directory) = .ok (backupPath directory).place)
    (haside : ∀ c, t.get? (backupPath directory).place ≠ some (.file c))
    (hstaging : t.get? (stagingPath directory).place = some .directory)
    (h : settle directory t = .error e u) :
    u = t ∧ ∀ v, t.move (stagingPath directory) directory ≠ .ok v := by
  have hES := apart_export_staging hnamed
  rw [settle_eq] at h
  split at h
  · next hmove =>
    cases h
    exact ⟨rfl, fun v hv => by rw [hmove] at hv; cases hv⟩
  · next v hmove =>
    obtain ⟨-, -, rfl⟩ := Tree.move_eq_ok hmove hstaging fun heq => hES.1 (heq ▸ List.prefix_rfl)
    have hfile : ∀ c, (t.moveEntries (stagingPath directory).place directory.place).get?
        (backupPath directory).place ≠ some (.file c) := fun c => by
      rw [Tree.get?_moveEntries_outside hES.symm (apart_staging_backup directory).1
        (apart_export_backup hnamed).1]
      exact haside c
    obtain ⟨w, hw⟩ := exists_removeIfThere hfile hshort
    rw [hw] at h
    cases h

/-- **The swap is all or nothing.** The directories can be renamed, so a failure comes before the
first of them is. -/
theorem swapIn_error {e : Failure} (hg : Guards directory before t) (hready : Ready directory t)
    (hfile : ∀ c, before.get? directory.place ≠ some (.file c))
    (haside : Renames directory before directory (backupPath directory))
    (hin : Renames directory before (stagingPath directory) directory)
    (h : swapIn directory t = .error e u) : u = t := by
  obtain ⟨hnamed, hshort⟩ := haside.backup
  have hES := apart_export_staging hnamed
  have hEP := apart_export_backup hnamed
  have hSP := apart_staging_backup directory
  rw [swapIn_eq] at h
  split at h
  · cases h
    rfl
  · exact (settle_error hnamed hshort hg.aside (hready.directories _ List.prefix_rfl) h).1
  · next hthere =>
    obtain ⟨-, hsome⟩ := Tree.isThere_eq_true_iff.mp hthere
    have hdir : t.get? directory.place = some .directory := by
      obtain ⟨entry, hentry⟩ := Option.isSome_iff_exists.mp hsome
      cases entry with
      | file c => exact absurd ((hg.files _ c List.prefix_rfl).mp hentry) (hfile c)
      | directory => exact hentry
    split at h
    · cases h
      rfl
    · next v hmove =>
      -- The export is put aside. Nothing is at its place now, so the staged files can take it.
      obtain ⟨hplace, -, rfl⟩ := Tree.move_eq_ok hmove hdir fun heq => hEP.1 (heq ▸ List.prefix_rfl)
      have hget := Tree.get?_moveEntries hEP (Tree.up_of_locate hplace hEP.symm.ne_nil)
      have hstaging : ∀ r, r <+: (stagingPath directory).place →
          (t.moveEntries directory.place (backupPath directory).place).get? r =
            some .directory := by
        intro r hr
        rw [hget, if_neg fun hp => hSP.2 (hp.trans hr), if_neg fun hp => hES.1 (hp.trans hr)]
        exact hready.directories r hr
      obtain ⟨x, hx⟩ := hin _
        (fun q hq hbefore => by
          rw [hget, if_neg hq.2.2, if_neg hq.1]
          exact hg.directories q hq hbefore)
        hstaging (by rw [hget, if_neg hEP.2, if_pos List.prefix_rfl])
      refine absurd hx
        ((settle_error hnamed hshort (fun c => ?_) (hstaging _ List.prefix_rfl) h).2 x)
      rw [hget, if_pos List.prefix_rfl, List.drop_length, List.append_nil, hdir]
      simp

/-! ## The export -/

theorem Guards.refl (haside : ∀ c, before.get? (backupPath directory).place ≠ some (.file c)) :
    Guards directory before before :=
  ⟨fun _ _ _ => .rfl, haside, fun _ _ h => h⟩

theorem Guards.removeIfThere (h : Guards directory before t) {p : Path}
    (hp : Tree.Apart directory.place p.place) (hout : ∀ r, Outside directory r → ¬ p.place <+: r) :
    Guards directory before (left (removeIfThere p t)) := by
  rcases left_removeIfThere p t with heq | ⟨-, heq⟩
  · rwa [heq]
  · rw [heq]
    exact h.erase hp hout

theorem Guards.clearStale (hnamed : Tree.isNamed directory) (h : Guards directory before t) :
    Guards directory before (left (clearStale directory t)) := by
  have hstaging := h.removeIfThere (apart_export_staging hnamed) fun _ hr => hr.2.1
  unfold Build.clearStale
  rw [run_bind]
  cases hrun : Build.removeIfThere (stagingPath directory) t with
  | error e u => exact left_of_error hrun ▸ hstaging
  | ok _ u =>
    exact (left_of_ok hrun ▸ hstaging).removeIfThere (apart_export_backup hnamed) fun _ hr => hr.2.2

/-- **A failed export leaves the one before.** -/
theorem writeExport_error {a : Artifacts} {e : Failure}
    (hfirst : StartsPlain a) (hinside : ∀ name ∈ a.names, (Path.ofText name).StaysInside)
    (hfile : ∀ c, before.get? directory.place ≠ some (.file c))
    (hprevious : ∀ c, before.get? (backupPath directory).place ≠ some (.file c))
    (haside : Renames directory before directory (backupPath directory))
    (hin : Renames directory before (stagingPath directory) directory)
    (h : writeExport directory a before = .error e u) : Guards directory before u := by
  obtain ⟨hnamed, -⟩ := haside.backup
  have hcleared := (Guards.refl hprevious).clearStale hnamed
  rw [writeExport_eq (name_ne_of_isNamed hnamed)] at h
  rcases run_bind_eq_error.mp h with h | ⟨_, t₁, h₁, h⟩
  · exact left_of_error h ▸ hcleared
  have hstaged : Guards directory before (left (stageFiles directory a t₁)) :=
    (left_of_ok h₁ ▸ hcleared).runs hnamed hinside (runs_stageFiles directory a t₁)
  rcases run_bind_eq_error.mp h with h | ⟨_, t₂, h₂, h⟩
  · exact left_of_error h ▸ hstaged
  rcases run_bind_eq_error.mp h with h | ⟨_, t₃, -, h⟩
  · have hready := ready_stageFiles hfirst h₂
    rw [left_of_ok h₂] at hstaged
    rw [swapIn_error hstaged hready hfile haside hin h]
    exact hstaged
  · cases h

/-! ## Builds -/

@[simp] theorem stage_enter (s : Session) (stage : Stage) : (s.enter stage).stage = stage := by
  simp [Session.stage, Session.enter]

/-- Everything is prepared, but the export cannot be written. -/
def FailsWriting (settings : Settings) (compiler : Compiler) (s : Session) : Prop :=
  ∃ made s₁ e t, prepare settings compiler s = .ok made s₁ ∧
    writeExport settings.exportPath made.artifacts s₁.tree = .error e t

/-- **Failed builds are atomic.** A build that fails before it writes leaves all files as they are,
and one that fails while it writes the export leaves the files of the export before. It is done
exactly when it gives a result. -/
theorem failed_build_keeps_export (settings : Settings) (compiler : Compiler) (s : Session)
    (hexport : ∀ c, s.tree.get? settings.exportPath.place ≠ some (.file c))
    (hprevious : ∀ c, s.tree.get? (backupPath settings.exportPath).place ≠ some (.file c))
    (hinside : ∀ made s₁, prepare settings compiler s = .ok made s₁ →
      ∀ name ∈ made.artifacts.names, (Path.ofText name).StaysInside)
    (haside : Renames settings.exportPath s.tree settings.exportPath
      (backupPath settings.exportPath))
    (hin : Renames settings.exportPath s.tree (stagingPath settings.exportPath)
      settings.exportPath) :
    match build settings compiler s with
    | .ok _ s' => s'.stage = .done
    | .error _ s' => s'.stage = .failed ∧
      (∃ reached, s'.stages = s.stages ++ reached ++ [.failed] ∧
        (.writing ∉ reached → s'.tree = s.tree)) ∧
      (FailsWriting settings compiler s → ∀ q c, settings.exportPath.place <+: q →
        (s'.tree.get? q = some (.file c) ↔ s.tree.get? q = some (.file c))) := by
  obtain ⟨htree, reached, hstages, hwriting⟩ := quiet_prepare settings compiler s
  rw [build_eq]
  cases hprepare : prepare settings compiler s with
  | error e s₁ =>
    rw [hprepare] at htree hstages
    refine ⟨stage_enter _ _, ⟨reached, congrArg (· ++ [Stage.failed]) hstages, fun _ => htree⟩, ?_⟩
    -- it failed before it wrote
    rintro ⟨made, s₂, e', t, hok, -⟩
    rw [hprepare] at hok
    cases hok
  | ok made s₁ =>
    rw [hprepare] at htree hstages
    dsimp only
    cases hwrite : writeAll settings made.manifest made.artifacts s₁.tree with
    | ok result t => exact stage_enter _ _
    | error e t =>
      refine ⟨stage_enter _ _, ⟨reached ++ [.writing], ?_, fun h => absurd (by simp) h⟩, ?_⟩
      · rw [← List.append_assoc]
        exact congrArg (· ++ [Stage.writing] ++ [Stage.failed]) hstages
      -- the export failed, not the archive that is packed behind it
      rintro ⟨made', s₂, e', t', hok, herror⟩
      rw [hprepare] at hok
      cases hok
      rw [writeAll_of_writeExport_error herror] at hwrite
      cases hwrite
      change s₁.tree = s.tree at htree
      obtain ⟨d, rest, hdocuments⟩ := documents_of_prepare hprepare
      rw [htree] at herror
      exact (writeExport_error ⟨_, d, rest, hdocuments, by decide, by decide⟩
        (hinside made s₁ hprepare) hexport hprevious haside hin herror).files

/-! ## An export that fails -/

/-- Directories with plain paths can be renamed beside each other. -/
theorem renames_of_plain {source target : Path}
      (hsource : Tree.Admissible source ∧ ".." ∉ source.parts ∧
        ∀ part ∈ source.parts, part.utf8ByteSize ≤ maxNameBytes)
    (htarget : Tree.Admissible target ∧ ".." ∉ target.parts ∧
      ∀ part ∈ target.parts, part.utf8ByteSize ≤ maxNameBytes)
    (hnamed : Tree.isNamed source ∧ Tree.isNamed target)
    (hparent : target.parent.parts <+: source.parts) :
    Renames directory before source target := by
  intro t _ hdir hnone
  have hplace : source.place = source.parts := Path.foldl_step_of_not_mem hsource.2.1 []
  have hwalk : ∀ p : Path, (".." ∉ p.parts ∧ ∀ part ∈ p.parts, part.utf8ByteSize ≤ maxNameBytes) →
      p.parent.parts <+: source.parts → t.Walkable [] p.parts := by
    intro p ⟨hup, hshort⟩ hp before part hb
    have hbefore : before <+: p.parent.parts := Path.prefix_parent hb
    rw [Path.foldl_step_of_not_mem fun hmem => hup ((hbefore.trans p.parent_prefix).subset hmem),
      List.nil_append]
    exact ⟨hdir before (hplace ▸ hbefore.trans hp), hshort part (hb.subset (by simp))⟩
  exact ⟨_, Tree.move_of_none
    (Tree.locate_eq_ok_iff.mpr ⟨hsource.1, hwalk source hsource.2 source.parent_prefix, rfl⟩)
    (Tree.locate_eq_ok_iff.mpr ⟨htarget.1, hwalk target htarget.2 hparent, rfl⟩) hnamed
    (hdir _ List.prefix_rfl) hnone⟩

/-- A text cannot be written when its name goes through that of a document. -/
theorem writeExport_of_through {a : Artifacts} {document text : String}
    (hname : directory.name ≠ "") (hdocument : document ∈ a.documents.keys)
    (htext : text ∈ a.texts.keys)
    (hthrough : ((stagingPath directory).join document).place <+:
      ((stagingPath directory).join text).place)
    (hne : ((stagingPath directory).join document).place ≠
      ((stagingPath directory).join text).place) :
    ∃ e u, writeExport directory a t = .error e u := by
  cases hrun : writeExport directory a t with
  | error e u => exact ⟨e, u, rfl⟩
  | ok written u =>
    rw [writeExport_eq hname] at hrun
    obtain ⟨_, t₁, -, hrun⟩ := run_bind_eq_ok.mp hrun
    obtain ⟨_, t₂, hstage, -⟩ := run_bind_eq_ok.mp hrun
    obtain ⟨_, t₃, hdocuments, hstage⟩ := run_bind_eq_ok.mp hstage
    obtain ⟨_, t₄, htexts, -⟩ := run_bind_eq_ok.mp hstage
    have hruns := left_of_ok htexts ▸
      stages_writeText.each (stagingPath directory) a.texts (List.Subset.refl _) t₃
    obtain ⟨c, hfile⟩ := (holds_writeDocuments hdocuments document hdocument).runs hruns
    obtain ⟨c', hbelow⟩ := holds_writeTexts htexts text htext
    rw [Tree.supports_of_get? hbelow _ hthrough hne] at hfile
    cases hfile

/-- The name of an editor script goes through the catalogue. -/
def blockedSettings : Settings :=
  { smallSettings with editorScripts := ["aces.json/x"] }

def blockedSession : Session where
  tree := .mk <| smallTree.entries ++
    [(["w", "export"], .directory), (["w", "export", "aces.json"], .file (.ofText "{}"))]

set_option maxRecDepth 100000 in
theorem exists_prepare_blocked : ∃ made s₁, prepare blockedSettings passthrough blockedSession =
    .ok made s₁ ∧
    (∀ name ∈ made.artifacts.names, (Path.ofText name).start = .here ∧
      ".." ∉ (Path.ofText name).parts) ∧
    "aces.json/x" ∈ made.artifacts.texts.keys :=
  exists_eq_ok (by decide +kernel)

theorem plain_blocked : ∀ p ∈ [blockedSettings.exportPath, stagingPath blockedSettings.exportPath,
      backupPath blockedSettings.exportPath],
    (Tree.Admissible p ∧ ".." ∉ p.parts ∧ ∀ part ∈ p.parts, part.utf8ByteSize ≤ maxNameBytes) ∧
      Tree.isNamed p ∧ p.parent.parts = ["w"] := by
  unfold Tree.Admissible
  decide +kernel

/-- The build has staged the catalogue when it fails, and the catalogue of the export
before is still there. -/
theorem failed_build_keeps_export_blocked :
    FailsWriting blockedSettings passthrough blockedSession ∧
      ∃ e s', build blockedSettings passthrough blockedSession = .error e s' ∧ s'.stage = .failed ∧
        s'.tree.get? ["w", "export", "aces.json"] = some (.file (.ofText "{}")) := by
  obtain ⟨made, s₁, hprepare, hplain, htext⟩ := exists_prepare_blocked
  obtain ⟨d, rest, hdocuments⟩ := documents_of_prepare hprepare
  obtain ⟨e, t, hwrite⟩ : ∃ e t,
      writeExport blockedSettings.exportPath made.artifacts s₁.tree = .error e t :=
    writeExport_of_through (by decide +kernel)
      (by rw [hdocuments]; exact List.mem_cons_self : Descriptor.catalogueFile ∈ _) htext
      (by decide +kernel)
      (by decide +kernel)
  have hfails : FailsWriting blockedSettings passthrough blockedSession :=
    ⟨made, s₁, e, t, hprepare, hwrite⟩
  have hexport : blockedSession.tree.get? blockedSettings.exportPath.place = some .directory := by
    decide +kernel
  have hprevious : blockedSession.tree.get? (backupPath blockedSettings.exportPath).place =
      none := by
    decide +kernel
  have hrename : ∀ source target, source ∈ [blockedSettings.exportPath,
        stagingPath blockedSettings.exportPath, backupPath blockedSettings.exportPath] →
      target ∈ [blockedSettings.exportPath, stagingPath blockedSettings.exportPath,
        backupPath blockedSettings.exportPath] →
      Renames blockedSettings.exportPath blockedSession.tree source target := by
    intro source target hs ht
    obtain ⟨hsource, hnamed, hparent⟩ := plain_blocked source hs
    obtain ⟨htarget, hnamed', hparent'⟩ := plain_blocked target ht
    exact renames_of_plain hsource htarget ⟨hnamed, hnamed'⟩
      (hparent'.trans hparent.symm ▸ source.parent_prefix)
  have hbelow : blockedSettings.exportPath.place <+:
      ["w", "export", "aces.json"] := by decide +kernel
  have hbefore : blockedSession.tree.get? ["w", "export", "aces.json"] =
      some (.file (.ofText "{}")) := by
    decide +kernel
  have haside := hrename _ (backupPath blockedSettings.exportPath) List.mem_cons_self (by simp)
  have hin := hrename (stagingPath blockedSettings.exportPath) _ (by simp) List.mem_cons_self
  -- From here on the settings and the session are not looked into, lest the build be run.
  clear hrename
  generalize blockedSettings = settings at *
  generalize blockedSession = s at *
  have herror : build settings passthrough s =
      .error e ({ s₁.enter .writing with tree := t }.enter .failed) := by
    rw [build_eq, hprepare]
    dsimp only
    rw [writeAll_of_writeExport_error hwrite]
  have hbuild := failed_build_keeps_export settings passthrough s (by simp [hexport])
    (by simp [hprevious])
    (fun made' s₁' hprepare' name hname => by
      rw [hprepare] at hprepare'
      cases hprepare'
      exact Path.staysInside_of_not_mem (hplain name hname).1 (hplain name hname).2)
    haside hin
  rw [herror] at hbuild
  obtain ⟨hstage, -, hfiles⟩ := hbuild
  exact ⟨hfails, e, _, herror, hstage, (hfiles hfails _ _ hbelow).mpr hbefore⟩

end Addon.Build
