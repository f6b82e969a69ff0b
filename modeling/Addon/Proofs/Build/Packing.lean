import Addon.Build.Package
import Addon.Proofs.Build.Replay
import Addon.Proofs.File.Listing

/-!
# Packing — what is in the archive of an export

An archive is written into a directory of its own, beside the export. Its members are the files of
the export, each of them once, and writing it changes nothing in the export. In two trees that agree
outside the directory of the archives, packing ends alike, whatever archives were there before.

## The architecture

* **`mem_members`**, **`nodup_members`** — the members of an archive.
* **`Archives`** — a directory for archives that lies apart from an export.
* **`package_eq_ok`**, **`package_twin`** — what packing leaves, in one tree and in two.
-/

namespace Addon.Build

open File Relation

variable {directory dist : Path} {m : Manifest} {t u v y : Tree}

/-! ## Members -/

theorem mem_members (hplace : t.locate directory = .ok directory.place)
    {member : String × List UInt8} :
    member ∈ members t directory ↔ ∃ q c, q ≠ [] ∧ t.get? (directory.place ++ q) = some (.file c) ∧
      member = ("/".intercalate q, c.bytes) := by
  unfold members
  rw [List.mem_map]
  constructor
  · rintro ⟨⟨q, c⟩, hmem, rfl⟩
    obtain ⟨hq, hget⟩ := (Tree.mem_filesBelow hplace).mp hmem
    exact ⟨q, c, hq, hget, rfl⟩
  · rintro ⟨q, c, hq, hget, rfl⟩
    exact ⟨(q, c), (Tree.mem_filesBelow hplace).mpr ⟨hq, hget⟩, rfl⟩

/-- A way can be read off the name of a member, so that files have different names. -/
theorem nodup_members (hplace : t.locate directory = .ok directory.place)
    (hways : ∀ q c, t.get? (directory.place ++ q) = some (.file c) → ∀ part ∈ q, IsPart part) :
    ((members t directory).map (·.1)).Nodup := by
  have hread : ∀ q ∈ (t.filesBelow directory).map (·.1), (Path.ofText ("/".intercalate q)).parts =
      q := by
    intro q hq
    obtain ⟨⟨r, c⟩, hmem, rfl⟩ := List.mem_map.mp hq
    obtain ⟨hne, hget⟩ := (Tree.mem_filesBelow hplace).mp hmem
    rw [Path.ofText_intercalate hne (hways r c hget)]
  have hmap : (members t directory).map (·.1) =
      ((t.filesBelow directory).map (·.1)).map fun q => "/".intercalate q := by
    simp [members]
  rw [hmap]
  refine (t.nodup_filesBelow directory).map_on fun a ha b hb heq => ?_
  rw [← hread a ha, heq, hread b hb]

/-! ## Packing -/

/-- A directory for archives lies apart from an export, and no path to it goes through either. -/
structure Archives (directory dist : Path) : Prop where
  beside : Beside directory dist.place
  way : dist.parent.Avoids (dist.place :: exportZones directory)

theorem Archives.apart (h : Archives directory dist) {z : Place} (hz : z ∈ exportZones directory) :
    Tree.Apart z dist.place := by
  simp only [exportZones, List.mem_cons, List.not_mem_nil, or_false] at hz
  rcases hz with rfl | rfl | rfl
  · exact h.beside.export'
  · exact h.beside.staging
  · exact h.beside.backup

theorem Archives.avoids (h : Archives directory dist) : dist.Avoids (exportZones directory) := by
  intro q hq z hz hzq
  rcases Path.Passes.place_or_parent hq with rfl | hq
  · exact (h.apart hz).1 hzq
  · exact h.way q hq z (List.mem_cons_of_mem _ hz) hzq

theorem length_archiveName (m : Manifest) : 2 < m.archiveName.length := by
  have hend : ".c3addon".length = 8 := by decide
  simp only [Manifest.archiveName, toString, String.length_append, hend]
  omega

/-- The name of an archive without a slash is one part. -/
theorem isPart_archiveName (hslash : '/' ∉ m.archiveName.toList) : IsPart m.archiveName := by
  refine ⟨hslash, ?_⟩
  have hlength := length_archiveName m
  have hne : ∀ text : String, text.length ≤ 2 → m.archiveName ≠ text := by
    rintro text htext rfl
    omega
  simp [isIdle, hne "" (by decide), hne "." (by decide)]

theorem place_archive (hslash : '/' ∉ m.archiveName.toList) :
    (dist.join m.archiveName).place = dist.place ++ [m.archiveName] :=
  place_join (isPart_archiveName hslash) (ne_up_of_length (length_archiveName m))

/-- No directory is made in the place of an archive. -/
theorem Archives.not_passes (h : Archives directory dist) (name : String) :
    ¬ dist.Passes (dist.place ++ [name]) := by
  intro hp
  rcases hp.place_or_parent with heq | hp
  · simp at heq
  · exact h.way _ hp _ List.mem_cons_self (List.prefix_append _ _)

/-- The steps of packing, once the export is known to be there. -/
def pack (directory dist : Path) (m : Manifest) : Work Path := do
  Work.change fun t => t.ensureDirectories dist
  Work.change fun t => t.write (dist.join m.archiveName) (.archive [])
  Work.change fun t => t.write (dist.join m.archiveName) (.archive (members t directory))
  return dist.join m.archiveName

theorem package_eq (directory dist : Path) (m : Manifest) :
    package directory dist m = Work.look (fun t => .ofFile (t.isDirectory directory)) >>=
      fun there =>
      if there then pack directory dist m else throw (.file (.noExport directory.toText)) := by
  unfold package
  congr 1
  funext there
  cases there <;> rfl

theorem pack_eq_ok {path : Path} (h : pack directory dist m t = .ok path y) :
    path = dist.join m.archiveName ∧ ∃ u v, t.ensureDirectories dist = .ok u ∧
      u.write (dist.join m.archiveName) (.archive []) = .ok v ∧
      v.write (dist.join m.archiveName) (.archive (members v directory)) = .ok y := by
  obtain ⟨_, u, hensure, h⟩ := run_bind_eq_ok.mp h
  obtain ⟨_, v, hopen, h⟩ := run_bind_eq_ok.mp h
  obtain ⟨_, w, hclose, h⟩ := run_bind_eq_ok.mp h
  cases h
  exact ⟨rfl, u, v, Work.change_eq_ok hensure, Work.change_eq_ok hopen, Work.change_eq_ok hclose⟩

theorem isDirectory_of_look (h : Attempt.ofFile (t.isDirectory directory) = .ok true) :
    t.isDirectory directory = .ok true := by
  cases hdir : t.isDirectory directory with
  | error e => rw [hdir] at h; cases h
  | ok b =>
    rw [hdir] at h
    cases h
    rfl

/-- Neither making the directory for an archive nor writing the archive touches the export. -/
theorem Archives.same (h : Archives directory dist) (hslash : '/' ∉ m.archiveName.toList)
    {c c' : Content} (hensure : t.ensureDirectories dist = .ok u)
    (hopen : u.write (dist.join m.archiveName) c = .ok v)
    (hclose : v.write (dist.join m.archiveName) c' = .ok y) {z : Place}
    (hz : z ∈ exportZones directory)
    {q : Place} (hq : z <+: q) : v.get? q = t.get? q ∧ y.get? q = v.get? q := by
  obtain ⟨-, hroom, hv⟩ := Tree.write_eq_ok hopen
  obtain ⟨-, hroom', hy⟩ := Tree.write_eq_ok hclose
  have hout : q ≠ (dist.join m.archiveName).place := by
    rintro rfl
    rw [place_archive hslash] at hq
    exact (h.apart hz).symm.not_within (List.prefix_append _ _) hq
  refine ⟨?_, by rw [hy, Tree.get?_set hroom', if_neg hout]⟩
  rw [hv, Tree.get?_set hroom, if_neg hout]
  exact (Tree.grows_ensureDirectories hensure q).resolve_right fun hpass =>
    h.avoids q hpass.1 z hz hq

/-- An archive is there, and the export is as it was. -/
structure Packed (directory : Path) (path : Path) (t y : Tree) : Prop where
  same : ∀ z ∈ exportZones directory, ∀ q, z <+: q → y.get? q = t.get? q
  archive : ∃ ms, y.get? path.place = some (.file (.archive ms)) ∧ (ms.map (·.1)).Nodup ∧
    ∀ member, member ∈ ms ↔ ∃ q c, q ≠ [] ∧ t.get? (directory.place ++ q) = some (.file c) ∧
      member = ("/".intercalate q, c.bytes)

theorem package_eq_ok {path : Path} (hsite : Archives directory dist)
    (hslash : '/' ∉ m.archiveName.toList)
    (hways : ∀ q c, t.get? (directory.place ++ q) = some (.file c) → ∀ part ∈ q, IsPart part)
    (hrun : package directory dist m t = .ok path y) :
    path = dist.join m.archiveName ∧ Packed directory path t y := by
  rw [package_eq] at hrun
  obtain ⟨there, t', hlook, hrun⟩ := run_bind_eq_ok.mp hrun
  obtain ⟨hlook, rfl⟩ := Work.look_eq_ok hlook
  cases there with
  | false => cases hrun
  | true =>
    obtain ⟨rfl, u, v, hensure, hopen, hclose⟩ := pack_eq_ok hrun
    obtain ⟨-, hroom, hv⟩ := Tree.write_eq_ok hopen
    obtain ⟨-, hroom', hy⟩ := Tree.write_eq_ok hclose
    have hgrows := Tree.grows_ensureDirectories hensure
    have hsame : ∀ z ∈ exportZones directory, ∀ q, z <+: q →
        v.get? q = t'.get? q ∧ y.get? q = v.get? q := fun z hz q hq =>
      hsite.same hslash hensure hopen hclose hz hq
    -- the archive is opened before the export is read, but not inside it
    have hexport : ∀ q, v.get? (directory.place ++ q) = t'.get? (directory.place ++ q) := fun q =>
      (hsame _ (by simp [exportZones]) _ (List.prefix_append _ _)).1
    have hplace : v.locate directory = .ok directory.place := by
      obtain ⟨hadmissible, hwalk, -⟩ := Tree.locate_eq_ok_iff.mp
        (Tree.isDirectory_eq_true_iff.mp (isDirectory_of_look hlook)).1
      refine Tree.locate_eq_ok_iff.mpr ⟨hadmissible, hwalk.mono fun q hq => ?_, rfl⟩
      exact hv ▸ Tree.directory_set hroom (hgrows.directory hq)
    refine ⟨rfl, fun z hz q hq => (hsame z hz q hq).2.trans (hsame z hz q hq).1,
      members v directory, by rw [hy, Tree.get?_set hroom', if_pos rfl], ?_, fun member => ?_⟩
    · exact nodup_members hplace fun q c hq => hways q c (hexport q ▸ hq)
    · rw [mem_members hplace]
      simp only [hexport]

/-- **Packing keeps the export**, and the directories beside it. -/
theorem package_same {path : Path} (hsite : Archives directory dist)
    (hslash : '/' ∉ m.archiveName.toList) (hrun : package directory dist m t = .ok path y)
    {z : Place} (hz : z ∈ exportZones directory) {q : Place}
    (hq : z <+: q) : y.get? q = t.get? q := by
  rw [package_eq] at hrun
  obtain ⟨there, t', hlook, hrun⟩ := run_bind_eq_ok.mp hrun
  obtain ⟨-, rfl⟩ := Work.look_eq_ok hlook
  cases there with
  | false => cases hrun
  | true =>
    obtain ⟨-, u, v, hensure, hopen, hclose⟩ := pack_eq_ok hrun
    obtain ⟨hfirst, hlast⟩ := hsite.same hslash hensure hopen hclose hz hq
    rw [hlast, hfirst]

/-! ## Two archives -/

section Twin

variable {t₁ t₂ u₁ u₂ : Tree}

/-- The way to an archive is the same in two trees once both have the directory for it. -/
theorem Archives.sameWay (h : Archives directory dist) (hslash : '/' ∉ m.archiveName.toList)
    (hagree : Tree.AgreeOutside [dist.place] u₁ u₂)
    (hdir : u₁.get? dist.place = some .directory ∧ u₂.get? dist.place = some .directory) :
    Tree.SameWay (dist.join m.archiveName) u₁ u₂ := by
  intro before part hb
  rw [parts_join (isPart_archiveName hslash)] at hb
  have hpass : dist.Passes (before.foldl Path.step []) := by
    rcases List.prefix_concat_iff.mp hb with heq | hb
    · exact ⟨before, by rw [(List.append_inj' heq rfl).1], rfl⟩
    · exact ⟨before, (List.prefix_append _ _).trans hb, rfl⟩
  rcases hpass.place_or_parent with heq | hpass
  · rw [heq, hdir.1, hdir.2]
  · exact hagree _ (h.way.subset (by simp) _ hpass)

theorem pack_twin (hsite : Archives directory dist) (hslash : '/' ∉ m.archiveName.toList)
    (hagree : Tree.AgreeOutside [dist.place] t₁ t₂) (hfiles : Tree.NoFiles dist.place t₁ t₂)
    (hfree : t₁.get? (dist.join m.archiveName).place ≠ some .directory ∧
      t₂.get? (dist.join m.archiveName).place ≠ some .directory) :
    Twin (Tree.AgreeOutside [dist.place]) (pack directory dist m t₁)
      (pack directory dist m t₂) := by
  have hway : dist.parent.Avoids [dist.place] := hsite.way.subset (by simp)
  have hwithin : dist.place <+: (dist.join m.archiveName).place := by
    rw [place_archive hslash]
    exact List.prefix_append _ _
  have hensure : Twin (Tree.AgreeOutside [dist.place])
      (Work.change (fun t => t.ensureDirectories dist) t₁)
      (Work.change (fun t => t.ensureDirectories dist) t₂) :=
    Work.change_twin (Tree.alike_ensureDirectories hagree hway (.inr hfiles))
  refine hensure.bind fun _ u₁ u₂ hu₁ hu₂ hu => ?_
  have hu₁ := Work.change_eq_ok hu₁
  have hu₂ := Work.change_eq_ok hu₂
  have hsame := hsite.sameWay hslash hu
    ⟨Tree.directory_ensureDirectories hu₁, Tree.directory_ensureDirectories hu₂⟩
  -- Making the directory for the archive makes none in the place of the archive.
  have hkeep : ∀ {t u : Tree}, t.ensureDirectories dist = .ok u →
      t.get? (dist.join m.archiveName).place ≠ some .directory →
      u.get? (dist.join m.archiveName).place ≠ some .directory := by
    intro t u hensure ht
    rwa [(Tree.grows_ensureDirectories hensure _).resolve_right fun hpass =>
      hsite.not_passes m.archiveName (place_archive hslash ▸ hpass.1)]
  have hfree₁ := hkeep hu₁ hfree.1
  have hfree₂ := hkeep hu₂ hfree.2
  have hopen : Twin (Tree.AgreeOutside [dist.place])
      (Work.change (fun t => t.write (dist.join m.archiveName) (.archive [])) u₁)
      (Work.change (fun t => t.write (dist.join m.archiveName) (.archive [])) u₂) :=
    Work.change_twin
      (Tree.alike_write_within hu hsame List.mem_cons_self hwithin ⟨hfree₁, hfree₂⟩ _ _)
  refine hopen.bind fun _ v₁ v₂ hv₁ hv₂ hv => ?_
  obtain ⟨-, hroom₁, rfl⟩ := Tree.write_eq_ok (Work.change_eq_ok hv₁)
  obtain ⟨-, hroom₂, rfl⟩ := Tree.write_eq_ok (Work.change_eq_ok hv₂)
  have hget₁ := Tree.get?_set hroom₁
  have hget₂ := Tree.get?_set hroom₂
  refine (Work.change_twin (Tree.alike_write_within hv (fun before part hb =>
      ?_) List.mem_cons_self hwithin
    ⟨by simp [hget₁], by simp [hget₂]⟩ _ _)).bind fun _ _ _ _ _ hy => .ok _ hy
  rw [hget₁, hget₂, hsame before part hb]

/-- **Two archives** of the same export: packing ends alike in both trees. -/
theorem package_twin (hsite : Archives directory dist) (hslash : '/' ∉ m.archiveName.toList)
    (hagree : Tree.AgreeOutside [dist.place] t₁ t₂) (hfiles : Tree.NoFiles dist.place t₁ t₂)
    (hfree : t₁.get? (dist.join m.archiveName).place ≠ some .directory ∧
      t₂.get? (dist.join m.archiveName).place ≠ some .directory) :
    Twin (Tree.AgreeOutside [dist.place]) (package directory dist m t₁)
      (package directory dist m t₂) := by
  have havoids : directory.Avoids [dist.place] := by
    intro q hq z hz hzq
    rcases Path.Passes.place_or_parent hq with rfl | hq
    · obtain rfl := List.mem_singleton.mp hz
      exact hsite.beside.export'.2 hzq
    · exact hsite.beside.way q hq z hz hzq
  rw [package_eq]
  refine (Work.look_twin (congrArg Attempt.ofFile (hagree.ask havoids _)) hagree).bind
    fun there u₁ u₂ hu₁ hu₂ _ => ?_
  obtain ⟨-, rfl⟩ := Work.look_eq_ok hu₁
  obtain ⟨-, rfl⟩ := Work.look_eq_ok hu₂
  cases there with
  | true => exact pack_twin hsite hslash hagree hfiles hfree
  | false => exact .error _ _ _

end Twin

end Addon.Build
