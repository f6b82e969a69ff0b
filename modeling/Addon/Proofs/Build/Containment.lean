import Addon.Proofs.Build.Determinism
import Addon.Proofs.Build.FileList

/-!
# Containment — where a build can write

A build joins names to its staging directory that others have chosen: the icon and the further files
of the configuration, the languages and the editor scripts of the settings. Nothing is checked about
them. A name that goes up too often, or that starts at the root, leads a build out of the
directories that are its own.

## The architecture

* **`Path.descent`**, **`Path.Descends`** — counting how deep a name leads decides whether it leads
  into every directory from which it is taken (`Path.Descends.isBelow`, `Path.descends_of_isBelow`).
* **`KeepsFiles`** — no file outside of some zones comes, goes or changes; kept by every change that
  is made in a zone, so by each run.
* **`keepsFiles_writeAll`** — writing and packing under names that stay inside.
* **`Confined`** — the names of the settings and of a manifest, each with the
  folder that it is put into.
* **`confined_names_stay_inside`** — these are the names that lead into every staging directory, and
  a build with them keeps all other files.
* **`climbing_tag_writes_outside`** — a language that leads a build out of the project's export.
-/

namespace Addon.File.Path

variable {parts : List String} {name : String} {p : Path}

/-! ## Names that lead down

The depth of a name is counted without the directory that it is taken from. -/

/-- How deep one stands after some parts, counted from a place above, if one does not
get above that place. -/
def descent : Nat → List String → Option Nat
  | depth, [] => some depth
  | depth, part :: rest =>
    if part = ".." then
      if depth = 0 then none else descent (depth - 1) rest
    else descent (depth + 1) rest

/-- The parts lead from a depth below a place to another one below it. -/
def LeadsBelow (depth : Nat) (parts : List String) : Prop :=
  0 < (descent depth parts).getD 0

instance (depth : Nat) (parts : List String) : Decidable (LeadsBelow depth parts) :=
  inferInstanceAs (Decidable (_ < _))

/-- A path that starts where one stands and leads down. -/
def Descends (p : Path) : Prop :=
  p.start = .here ∧ LeadsBelow 0 p.parts

instance (p : Path) : Decidable p.Descends :=
  inferInstanceAs (Decidable (_ ∧ _))

/-- A place strictly inside of another one. -/
def IsBelow (outer q : Place) : Prop :=
  outer <+: q ∧ q ≠ outer

/-- **The descent is the depth.** By induction on the parts: each of them
changes the last name only. -/
theorem foldl_step_of_descent {n : Nat} (here below : Place)
    (h : descent below.length parts = some n) :
    ∃ rest, rest.length = n ∧ parts.foldl step (here ++ below) = here ++ rest := by
  induction parts generalizing below with
  | nil =>
    cases h
    exact ⟨below, rfl, rfl⟩
  | cons part parts ih =>
    rw [descent] at h
    rw [List.foldl_cons]
    split at h
    · next hup =>
      rcases List.eq_nil_or_concat' below with rfl | ⟨above, last, rfl⟩
      · cases h
      · rw [if_neg (by simp), List.length_append, List.length_singleton, Nat.add_sub_cancel] at h
        have hstep : step (here ++ (above ++ [last])) part = here ++ above := by
          rw [step, if_pos hup, ← List.append_assoc, List.dropLast_concat]
        rw [hstep]
        exact ih above h
    · next hdown =>
      have hlength : (below ++ [part]).length = below.length + 1 := by simp
      rw [step_of_ne hdown, List.append_assoc]
      exact ih (below ++ [part]) (hlength ▸ h)

/-- Names on a way come from its start or from its parts. -/
theorem mem_foldl_step {here : Place}
    (h : name ∈ parts.foldl step here) : name ∈ here ∨ name ∈ parts := by
  induction parts generalizing here with
  | nil => exact .inl h
  | cons part rest ih =>
    rcases ih h with hstep | hrest
    · unfold step at hstep
      split at hstep
      · exact .inl (List.mem_of_mem_dropLast hstep)
      · rcases List.mem_append.mp hstep with hhere | hpart
        · exact .inl hhere
        · exact .inr (by simp [List.mem_singleton.mp hpart])
    · exact .inr (List.mem_cons_of_mem part hrest)

/-- A way without a descent leaves the directory that it starts in, and comes
back only by its name. -/
theorem not_mem_of_descent_none (hname : name ∉ parts)
    {below : Place} (hbelow : name ∉ below) (h : descent below.length parts = none) :
    name ∉ parts.foldl step (name :: below) := by
  induction parts generalizing below with
  | nil => cases h
  | cons part parts ih =>
    obtain ⟨hpart, hparts⟩ := not_or.mp (mt List.mem_cons.mpr hname)
    rw [descent] at h
    rw [List.foldl_cons]
    split at h
    · next hup =>
      rcases List.eq_nil_or_concat' below with rfl | ⟨above, last, rfl⟩
      · -- Here the directory is left.
        intro hmem
        rw [step, if_pos hup] at hmem
        exact (mem_foldl_step hmem).elim (by simp) hparts
      · rw [if_neg (by simp), List.length_append, List.length_singleton, Nat.add_sub_cancel] at h
        have hstep : step (name :: (above ++ [last])) part = name :: above := by
          rw [step, if_pos hup, ← List.cons_append, List.dropLast_concat]
        rw [hstep]
        exact ih hparts (fun habove => hbelow (List.mem_append_left _ habove)) h
    · next hdown =>
      have hlength : (below ++ [part]).length = below.length + 1 := by simp
      have hfree : name ∉ below ++ [part] := by simp [hbelow, hpart]
      rw [step_of_ne hdown, List.cons_append]
      exact ih hparts hfree (hlength ▸ h)

theorem Descends.foldl_step (h : p.Descends) (here : Place) :
    IsBelow here (p.parts.foldl step here) := by
  have hdeep : 0 < (descent 0 p.parts).getD 0 := h.2
  cases hn : descent 0 p.parts with
  | none =>
    rw [hn] at hdeep
    exact absurd hdeep (by simp)
  | some n =>
    rw [hn] at hdeep
    obtain ⟨rest, hlength, hend⟩ := foldl_step_of_descent here [] hn
    rw [List.append_nil] at hend
    rw [hend]
    refine ⟨List.prefix_append _ _, fun heq => ?_⟩
    obtain rfl : rest = [] := by simpa using heq
    exact absurd hdeep (by simp [← hlength])

theorem Descends.staysInside (h : p.Descends) : p.StaysInside :=
  ⟨h.1, fun here => (h.foldl_step here).1⟩

/-- A path that descends leads from every directory strictly into it. -/
theorem Descends.isBelow (h : p.Descends) (directory : Path) :
    IsBelow directory.place (directory.append p).place := by
  unfold place
  rw [parts_append h.1, List.foldl_append]
  exact h.foldl_step _

/-- Conversely, it is enough that it leads into one directory, if it does not know
the name of that one. -/
theorem descends_of_isBelow {directory : Path} (hplace : directory.place = [name])
    (hname : name ∉ p.parts) (h : IsBelow directory.place (directory.append p).place) :
    p.Descends := by
  rw [hplace] at h
  have hmem : name ∈ (directory.append p).place := h.1.subset List.mem_cons_self
  have hstart : p.start = .here := by
    by_contra hstart
    rw [append, if_neg hstart] at hmem
    exact (mem_foldl_step hmem).elim (by simp) hname
  have hend : (directory.append p).place = p.parts.foldl step ([name] ++ []) := by
    rw [place, parts_append hstart, List.foldl_append, ← place, hplace, List.append_nil]
  refine ⟨hstart, ?_⟩
  unfold LeadsBelow
  cases hn : descent 0 p.parts with
  | none =>
    rw [hend] at hmem
    exact absurd hmem (not_mem_of_descent_none hname (by simp) hn)
  | some n =>
    obtain ⟨rest, hlength, hrest⟩ := foldl_step_of_descent [name] [] hn
    have hne : rest ≠ [] := by
      rintro rfl
      exact h.2 (by rw [hend, hrest, List.append_nil])
    rw [Option.getD_some, ← hlength]
    exact List.length_pos_iff.mpr hne

/-! ## Names in a folder

A folder in front of a name lets it go up once. -/

/-- A name that is put into a folder starts there, even if it starts with a slash. -/
theorem ofText_in_folder {folder text : String} (hfolder : IsPart folder)
    (htext : text.toList = folder.toList ++ '/' :: name.toList) :
    (ofText text).start = .here ∧ (ofText text).parts = folder :: (ofText name).parts := by
  obtain ⟨hslash, hidle⟩ := hfolder
  have hstart : Start.ofText text.toList = .here := by
    rw [htext]
    cases hcs : folder.toList with
    | nil =>
      obtain rfl : folder = "" := String.toList_inj.mp hcs
      exact absurd hidle (by decide)
    | cons c cs =>
      rw [hcs] at hslash
      simp [Start.ofText, Ne.symm (List.ne_of_not_mem_cons hslash)]
  have hsplit : Text.splitOn '/' text.toList = folder.toList :: Text.splitOn '/' name.toList := by
    rw [htext, splitOn_append hslash]
  refine ⟨hstart, ?_⟩
  simp [ofText, hsplit, hidle]

theorem descends_in_folder (folder : String) {text : String} (hfolder : IsPart folder)
    (hup : folder ≠ "..") (htext : text.toList = folder.toList ++ '/' :: name.toList) :
    (ofText text).Descends ↔ LeadsBelow 1 (ofText name).parts := by
  obtain ⟨hstart, hparts⟩ := ofText_in_folder hfolder htext
  unfold Descends LeadsBelow
  rw [hstart, hparts, descent, if_neg hup]
  simp

/-- There is a part that is longer than some texts. -/
theorem exists_longer (texts : List String) :
    ∃ long : String, IsPart long ∧ ∀ text ∈ texts, text.length < long.length := by
  obtain ⟨n, hn⟩ : ∃ n, ∀ text ∈ texts, text.length ≤ n := by
    induction texts with
    | nil => exact ⟨0, by simp⟩
    | cons text rest ih =>
      obtain ⟨n, hn⟩ := ih
      exact ⟨max text.length n, List.forall_mem_cons.mpr
        ⟨le_max_left _ _, fun other hother => (hn other hother).trans (le_max_right _ _)⟩⟩
  refine ⟨String.ofList (List.replicate (n + 1) '+'), ?_, fun text htext => ?_⟩
  · simp [IsPart, isIdle, List.replicate_succ, ← String.toList_inj]
  · simpa using Nat.lt_succ_of_le (hn text htext)

end Addon.File.Path

namespace Addon.Build

open File Descriptor Relation

/-! ## Files outside

A change that is made in a zone keeps what is outside, and so does a run of them. -/

/-- Outside of some zones no file has come, gone or changed, and no directory has gone. -/
def KeepsFiles (zones : List Place) (t u : Tree) : Prop :=
  ∀ q, (∀ z ∈ zones, ¬ z <+: q) →
    (∀ c, u.get? q = some (.file c) ↔ t.get? q = some (.file c)) ∧
    (t.get? q = some .directory → u.get? q = some .directory)

section KeepsFiles

variable {zones : List Place} {t u v : Tree}

theorem KeepsFiles.refl (zones : List Place) (t : Tree) : KeepsFiles zones t t := fun _ _ =>
  ⟨fun _ => Iff.rfl, id⟩

theorem KeepsFiles.trans (h : KeepsFiles zones t u) (h' : KeepsFiles zones u v) :
    KeepsFiles zones t v :=
  fun q hq => ⟨fun c => ((h' q hq).1 c).trans ((h q hq).1 c),
    fun hdir => (h' q hq).2 ((h q hq).2 hdir)⟩

theorem KeepsFiles.runs (h : ReflTransGen (KeepsFiles zones) t u) : KeepsFiles zones t u := by
  induction h with
  | refl => exact .refl zones t
  | tail _ hstep ih => exact ih.trans hstep

/-- It is enough that entries outside of the zones are the same. -/
theorem KeepsFiles.of_get? (h : ∀ q, (∀ z ∈ zones, ¬ z <+: q) → u.get? q = t.get? q) :
    KeepsFiles zones t u := fun q hq => by
  rw [h q hq]
  exact ⟨fun _ => Iff.rfl, id⟩

theorem KeepsFiles.grow {way : Path} (h : Tree.Grows way t u) : KeepsFiles zones t u := fun _ _ =>
  ⟨fun _ => h.file_iff, h.directory⟩

theorem KeepsFiles.put {z q : Place} (hz : z ∈ zones) (hq : z <+: q) (e : File.Entry) :
    KeepsFiles zones t (t.set q e) := by
  by_cases hroom : t.HasRoom q e
  · refine .of_get? fun r hr => ?_
    have hrq : r ≠ q := by
      rintro rfl
      exact hr z hz hq
    rw [Tree.get?_set hroom, if_neg hrq]
  · rw [Tree.set, dif_neg hroom]
    exact .refl zones t

theorem KeepsFiles.erase {z : Place} (hz : z ∈ zones) : KeepsFiles zones t (t.erase z) := by
  refine .of_get? fun r hr => ?_
  have hne : z ≠ [] := by
    rintro rfl
    exact hr [] hz List.nil_prefix
  rw [Tree.get?_erase t hne, if_neg (hr z hz)]

theorem KeepsFiles.moveEntries {source target : Place} (hsource : source ∈ zones)
    (htarget : target ∈ zones)
    (h : Tree.Apart source target) : KeepsFiles zones t (t.moveEntries source target) :=
  .of_get? fun _ hr => Tree.get?_moveEntries_outside h (hr source hsource) (hr target htarget)

/-- A move that succeeds is one of paths with names, if it moves anything. -/
theorem move_cases {source target : Path} (h : t.move source target = .ok u) :
    u = t ∨ (Tree.isNamed source ∧ Tree.isNamed target) ∧
    u = t.moveEntries source.place target.place := by
  unfold Tree.move at h
  dsimp only at h
  split at h
  · cases h
  · cases h
  · next from' to' hfrom hto =>
    obtain rfl := (Tree.locate_eq_ok_iff.mp hfrom).2.2
    obtain rfl := (Tree.locate_eq_ok_iff.mp hto).2.2
    split at h
    · cases h
    · next hnamed =>
      have hnamed : Tree.isNamed source ∧ Tree.isNamed target := by simpa using hnamed
      -- a move onto its own place does nothing; any other that succeeds moves the entries
      split at h
      · cases h
      · cases h
        exact .inr ⟨hnamed, rfl⟩
      · cases h
        exact .inr ⟨hnamed, rfl⟩
      · cases h
      · cases h
      · split at h
        · cases h
          exact .inl rfl
        · split at h
          · cases h
            exact .inr ⟨hnamed, rfl⟩
          · cases h

/-- **The step** of staging: names that stay inside of a zone are written there. -/
theorem Writes.keepsFiles {staging : Path} {names : List String} (hz : staging.place ∈ zones)
    (hinside : ∀ name ∈ names, (Path.ofText name).StaysInside) (hw : Writes staging names t u) :
    KeepsFiles zones t u := by
  cases hw with
  | grow hname hg => exact .grow hg
  | put content hname hplace hroom =>
    exact .put hz (Path.prefix_place_append (hinside _ hname)) _
  | putInto source content hname hdir hsource hroom =>
    -- The copy goes into a directory that is inside itself.
    have hlast := Path.staysInside_name (Tree.name_ne_up_of_file hsource)
    exact .put hz ((Path.prefix_place_append (hinside _ hname)).trans
      (Path.prefix_place_append hlast)) _

end KeepsFiles

/-! ## Writing and packing

Every step of a build is in one of its zones. -/

section Work

variable {zones : List Place} {directory : Path} {a : Artifacts}

theorem keepsFiles_removeIfThere {p : Path} (hz : p.place ∈ zones) :
    Work.Runs (KeepsFiles zones) (removeIfThere p) := by
  intro t
  rcases left_removeIfThere p t with hleft | ⟨-, hleft⟩
  · rw [hleft]
  · rw [hleft]
    exact .single (.erase hz)

theorem keepsFiles_stageFiles (hz : (stagingPath directory).place ∈ zones)
    (hinside : ∀ name ∈ a.names, (Path.ofText name).StaysInside) :
    Work.Runs (KeepsFiles zones) (stageFiles directory a) := fun t =>
  ReflTransGen.mono (fun _ _ => Writes.keepsFiles hz hinside) _ _ (runs_stageFiles directory a t)

theorem keepsFiles_swapIn (hz : ∀ z ∈ exportZones directory, z ∈ zones) :
    Work.Runs (KeepsFiles zones) (swapIn directory) := by
  have hexport : directory.place ∈ zones := hz _ (by simp [exportZones])
  have hstaging : (stagingPath directory).place ∈ zones := hz _ (by simp [exportZones])
  have hbackup : (backupPath directory).place ∈ zones := hz _ (by simp [exportZones])
  have haside : Work.Runs (KeepsFiles zones)
      (Work.change fun t => t.move directory (backupPath directory)) := by
    refine Work.runs_change fun t u h => ?_
    rcases move_cases h with rfl | ⟨hnamed, rfl⟩
    · exact .refl zones _
    · exact .moveEntries hexport hbackup (apart_export_backup hnamed.1)
  have hplace : Work.Runs (KeepsFiles zones)
      (Work.change fun t => t.move (stagingPath directory) directory) := by
    refine Work.runs_change fun t u h => ?_
    rcases move_cases h with rfl | ⟨hnamed, rfl⟩
    · exact .refl zones _
    · exact .moveEntries hstaging hexport (apart_export_staging hnamed.2).symm
  have hrest := hplace.bind fun _ => keepsFiles_removeIfThere hbackup
  refine (Work.runs_look _).bind fun there => ?_
  cases there with
  | true => exact haside.bind fun _ => hrest
  | false => exact hrest

theorem keepsFiles_writeExport (hz : ∀ z ∈ exportZones directory, z ∈ zones)
    (hinside : ∀ name ∈ a.names, (Path.ofText name).StaysInside) :
    Work.Runs (KeepsFiles zones) (writeExport directory a) := by
  by_cases hname : directory.name = ""
  · unfold writeExport
    rw [if_pos hname]
    exact Work.runs_throw _
  · have hstaging : (stagingPath directory).place ∈ zones := hz _ (by simp [exportZones])
    have hbackup : (backupPath directory).place ∈ zones := hz _ (by simp [exportZones])
    rw [writeExport_eq hname]
    exact ((keepsFiles_removeIfThere hstaging).bind fun _ =>
      keepsFiles_removeIfThere hbackup).bind fun _ =>
      (keepsFiles_stageFiles hstaging hinside).bind fun _ =>
      (keepsFiles_swapIn hz).bind fun _ => Work.runs_pure _

theorem keepsFiles_package {dist : Path} {m : Manifest} (hz : dist.place ∈ zones)
    (harchive : (Path.ofText m.archiveName).StaysInside) :
    Work.Runs (KeepsFiles zones) (package directory dist m) := by
  have hwrite : ∀ content : Tree → Content, Work.Runs (KeepsFiles zones)
      (Work.change fun t => t.write (dist.join m.archiveName) (content t)) := by
    refine fun content => Work.runs_change fun t u h => ?_
    obtain ⟨-, -, rfl⟩ := Tree.write_eq_ok h
    exact .put hz (Path.prefix_place_append harchive) _
  have hensure : Work.Runs (KeepsFiles zones) (Work.change fun t => t.ensureDirectories dist) :=
    Work.runs_change fun t u h => .grow (Tree.grows_ensureDirectories h)
  rw [package_eq]
  refine (Work.runs_look _).bind fun there => ?_
  cases there with
  | false => exact Work.runs_throw _
  | true =>
    exact hensure.bind fun _ => (hwrite fun _ => .archive []).bind fun _ =>
      (hwrite fun t => .archive (members t directory)).bind fun _ => Work.runs_pure _

/-- **Writing and packing** under names that stay inside, whether they succeed or fail. -/
theorem keepsFiles_writeAll (settings : Settings) (m : Manifest)
    (hinside : ∀ name ∈ a.names, (Path.ofText name).StaysInside)
    (harchive : settings.package = true → (Path.ofText m.archiveName).StaysInside) (t : Tree) :
    KeepsFiles (writtenZones settings) t (left (writeAll settings m a t)) := by
  refine KeepsFiles.runs (Work.Runs.bind (keepsFiles_writeExport ?_ hinside) (fun written => ?_) t)
  · exact fun z hz => List.mem_cons_of_mem _ hz
  · cases hpackage : settings.package with
    | false => exact Work.runs_pure _
    | true =>
      exact (keepsFiles_package List.mem_cons_self (harchive hpackage)).bind fun _ =>
        Work.runs_pure _

end Work

/-! ## Names of a build -/

/-- All names that a build may write, whatever files there are. -/
def possibleNames (settings : Settings) (m : Manifest) : List String :=
  ownNames m settings.tags settings.editorScripts ++
    (m.icon.toText?.toList ++ m.fileDependencies.map fun d => runtimeFile d.filename)

/-- The names that others have chosen lead down. A language is put into a folder of its own and a
further file into that of the runtime, so that these may start with a slash and go up once. -/
structure Confined (settings : Settings) (m : Manifest) : Prop where
  icon : ∀ name, m.icon = .str name → (Path.ofText name).Descends
  files : ∀ d ∈ m.fileDependencies, Path.LeadsBelow 1 (Path.ofText d.filename).parts
  tags : ∀ tag ∈ settings.tags, Path.LeadsBelow 1 (Path.ofText (tag ++ ".json")).parts
  scripts : ∀ script ∈ settings.editorScripts, (Path.ofText script).Descends

theorem descends_languageFile (tag : String) :
    (Path.ofText (languageFile tag)).Descends ↔
      Path.LeadsBelow 1 (Path.ofText (tag ++ ".json")).parts :=
  Path.descends_in_folder "lang" (by decide) (by decide) (by simp [languageFile])

theorem descends_runtimeFile (filename : String) :
    (Path.ofText (runtimeFile filename)).Descends ↔
      Path.LeadsBelow 1 (Path.ofText filename).parts :=
  Path.descends_in_folder "c3runtime" (by decide) (by decide) (by simp [runtimeFile])

/-- The fixed names lead down, and of the others nothing more is asked than that they do. -/
theorem confined_iff {settings : Settings} {m : Manifest} :
    Confined settings m ↔ ∀ name ∈ possibleNames settings m, (Path.ofText name).Descends := by
  have hfixed : ∀ name ∈ [catalogueFile, addonFile], (Path.ofText name).Descends := by decide
  have hruntime : ∀ type : AddonType, ∀ name ∈ runtimeFiles type, (Path.ofText name).Descends := by
    intro type
    cases type <;> decide
  have hicon : ∀ name, name ∈ m.icon.toText?.toList ↔ m.icon = .str name := by
    intro name
    cases m.icon <;> simp [Value.toText?, eq_comm]
  simp only [possibleNames, ownNames, List.mem_append, or_imp, forall_and,
    List.forall_mem_map, hicon, descends_languageFile, descends_runtimeFile]
  constructor
  · exact fun h => ⟨⟨⟨hfixed, h.tags⟩, hruntime _, h.scripts⟩, h.icon, h.files⟩
  · rintro ⟨⟨⟨-, htags⟩, -, hscripts⟩, hicon, hfiles⟩
    exact ⟨hicon, hfiles, htags, hscripts⟩

instance (settings : Settings) (m : Manifest) : Decidable (Confined settings m) :=
  decidable_of_iff _ confined_iff.symm

/-- A name that leads into every staging directory leads down. -/
theorem descends_of_staging {name : String} (h : ∀ directory : Path,
    Path.IsBelow (stagingPath directory).place ((stagingPath directory).join name).place) :
    (Path.ofText name).Descends := by
  obtain ⟨long, hpart, hlong⟩ := Path.exists_longer (Path.ofText name).parts
  let directory : Path := ⟨.root, [long], fun _ hmem => List.mem_singleton.mp hmem ▸ hpart⟩
  have hplace : (stagingPath directory).place = [s!".{long}.staging"] := place_stagingPath _
  refine Path.descends_of_isBelow hplace (fun hmem => ?_) (h directory)
  have := hlong _ hmem
  rw [length_stagingName] at this
  omega

/-- What was prepared has no other names. -/
theorem possibleNames_of_prepare {settings : Settings} {compiler : Compiler} {made : Prepared}
    {s s' : Session} (h : prepare settings compiler s = .ok made s') :
    ∀ name ∈ made.artifacts.names, name ∈ possibleNames settings made.manifest := by
  obtain ⟨icon, issued, copies, hicon, -, -, -, hnames, hgathers⟩ := names_of_prepare h
  intro name hname
  rcases (hnames name).mp hname with hown | hcopy
  · exact List.mem_append_left _ hown
  · refine List.mem_append_right _ ?_
    obtain ⟨w, hw, rfl⟩ := (hgathers.asked name hcopy).resolve_left (by simp)
    rcases List.mem_cons.mp hw with rfl | hw
    · simp [hicon, Value.toText?, wantedIcon]
    · obtain ⟨d, hd, rfl⟩ := List.mem_map.mp hw
      exact List.mem_append_right _ (List.mem_map.mpr ⟨d, hd, rfl⟩)

/-! ## Builds -/

/-- **Confined names stay inside.** The names of a build lead strictly into every staging directory
exactly if they are confined. With confined names, and with an archive whose name leads down as
well, a build writes each of its artifacts strictly inside its staging directory; and whether it
succeeds or fails, every file outside the export, the two directories beside it and that of the
archives is as it was. -/
theorem confined_names_stay_inside (settings : Settings) (compiler : Compiler) (s : Session) :
    (∀ m, Confined settings m ↔ ∀ directory : Path, ∀ name ∈ possibleNames settings m,
      Path.IsBelow (stagingPath directory).place ((stagingPath directory).join name).place) ∧
    ((∀ m, Config.load s.tree (settings.sourcePath.join settings.addonConfig) = .ok m →
        Confined settings m ∧ (settings.package = true → (Path.ofText m.archiveName).Descends)) →
      (∀ made s₁, prepare settings compiler s = .ok made s₁ → ∀ name ∈ made.artifacts.names,
        Path.IsBelow (stagingPath settings.exportPath).place
          ((stagingPath settings.exportPath).join name).place) ∧
      KeepsFiles (writtenZones settings) s.tree (left (build settings compiler s)).tree) := by
  refine ⟨fun m => ?_, fun hconfined => ?_⟩
  · rw [confined_iff]
    exact ⟨fun h directory name hname => (h name hname).isBelow _,
      fun h name hname => descends_of_staging fun directory => h directory name hname⟩
  have hnames : ∀ made s₁, prepare settings compiler s = .ok made s₁ →
      ∀ name ∈ made.artifacts.names, (Path.ofText name).Descends := by
    intro made s₁ hprepare name hname
    obtain ⟨_, _, _, _, _, hload, -⟩ := prepare_eq_ok hprepare
    exact confined_iff.mp (hconfined _ hload).1 name (possibleNames_of_prepare hprepare name hname)
  refine ⟨fun made s₁ hprepare name hname => (hnames made s₁ hprepare name hname).isBelow _, ?_⟩
  have htree := (quiet_prepare settings compiler s).1
  rw [build_eq]
  cases hprepare : prepare settings compiler s with
  | error e s₁ =>
    -- nothing was written yet
    rw [hprepare] at htree
    change KeepsFiles _ s.tree s₁.tree
    rw [show s₁.tree = s.tree from htree]
    exact .refl _ _
  | ok made s₁ =>
    rw [hprepare] at htree
    have htree : s₁.tree = s.tree := htree
    obtain ⟨_, _, _, _, _, hload, -⟩ := prepare_eq_ok hprepare
    have hkeeps := keepsFiles_writeAll settings made.manifest
      (fun name hname => (hnames made s₁ hprepare name hname).staysInside)
      (fun hpackage => ((hconfined _ hload).2 hpackage).staysInside) s₁.tree
    dsimp only
    rw [htree] at hkeeps ⊢
    cases hwrite : writeAll settings made.manifest made.artifacts s.tree with
    | error e t => exact left_of_error hwrite ▸ hkeeps
    | ok pair t => exact left_of_ok hwrite ▸ hkeeps

/-! ### Languages that go up -/

/-- Settings with one language. -/
def taggedSettings (tag : String) : Settings :=
  { sparseSettings with languageTags := [some tag] }

set_option maxRecDepth 100000 in
/-- A language whose file goes up once is confined, and one whose file goes up twice is
not. Both are written. -/
theorem prepare_tagged :
    ∀ file ∈ [("../en", ["w", "export", "en.json"]), ("../../evil", ["w", "evil.json"])],
    Achieves (prepare (taggedSettings file.1) passthrough sparseSession) fun made s₁ =>
      GetsThrough (taggedSettings file.1) made s₁.tree ∧
      (Confined (taggedSettings file.1) made.manifest ↔ file.1 = "../en") ∧
      Achieves (placeExport (taggedSettings file.1).exportPath made.artifacts s₁.tree) fun _ t =>
        (t.get? file.2).isSome := by
  decide +kernel

/-- The language is written into the export, and the files of the project are kept. -/
theorem confined_names_stay_inside_upward : ∃ result s',
    build (taggedSettings "../en") passthrough sparseSession = .ok result s' ∧
    (s'.tree.get? ["w", "export", "en.json"]).isSome ∧
    KeepsFiles (writtenZones (taggedSettings "../en")) sparseSession.tree s'.tree := by
  obtain ⟨made, s₁, hprepare, hthrough, hconfined, hplaced⟩ :=
    prepare_tagged ("../en", ["w", "export", "en.json"]) List.mem_cons_self
  obtain ⟨_, s', hbuild, -, hplace⟩ := placed_of_getsThrough rfl rfl hprepare hthrough
  have hload : ∀ m, Config.load sparseSession.tree
      ((taggedSettings "../en").sourcePath.join (taggedSettings "../en").addonConfig) = .ok m →
      Confined (taggedSettings "../en") m ∧
        ((taggedSettings "../en").package = true → (Path.ofText m.archiveName).Descends) := by
    intro m hm
    obtain ⟨_, _, _, _, _, hmade, -⟩ := prepare_eq_ok hprepare
    obtain rfl := Except.ok.inj (hm.symm.trans hmade)
    exact ⟨hconfined.mpr rfl, fun hpackage => absurd hpackage (by decide)⟩
  have hkeeps :=
    ((confined_names_stay_inside (taggedSettings "../en") passthrough sparseSession).2 hload).2
  rw [left_of_ok hbuild] at hkeeps
  exact ⟨_, s', hbuild, hplaced.of_ok hplace, hkeeps⟩

/-- The build succeeds, and beside the export there is a new file. -/
theorem climbing_tag_writes_outside : ∃ result s',
    build (taggedSettings "../../evil") passthrough sparseSession = .ok result s' ∧
    (∀ z ∈ writtenZones (taggedSettings "../../evil"), ¬ z <+: ["w", "evil.json"]) ∧
    sparseSession.tree.get? ["w", "evil.json"] = none ∧
    (s'.tree.get? ["w", "evil.json"]).isSome := by
  obtain ⟨made, s₁, hprepare, hthrough, -, hplaced⟩ :=
    prepare_tagged ("../../evil", ["w", "evil.json"]) (by simp)
  obtain ⟨_, s', hbuild, -, hplace⟩ := placed_of_getsThrough rfl rfl hprepare hthrough
  exact ⟨_, s', hbuild, by decide, by decide, hplaced.of_ok hplace⟩

end Addon.Build
