import Addon.Proofs.File.Tree
import Mathlib.Data.List.Pairwise

/-!
# Listings — the files in a directory, each once

A tree is a table of entries, and a listing goes through that table. No place has two entries, so a
listing of a directory has every file in it, and none twice: `mem_filesBelow`, `nodup_filesBelow`.
-/

namespace Addon.File.Tree

variable {t : Tree}

theorem mem_below {place q : Place} {e : Entry} :
    (q, e) ∈ t.below place ↔ q ≠ [] ∧ (place ++ q, e) ∈ t.entries := by
  unfold below
  rw [List.mem_filterMap]
  constructor
  · rintro ⟨⟨r, f⟩, hmem, hr⟩
    split at hr
    · next hwithin =>
      simp only [Bool.and_eq_true, decide_eq_true_eq, isWithin_iff] at hwithin
      obtain ⟨⟨rest, rfl⟩, hne⟩ := hwithin
      simp only [Option.some.injEq, Prod.mk.injEq, List.drop_left] at hr
      obtain ⟨rfl, rfl⟩ := hr
      exact ⟨by simpa using hne, hmem⟩
    · cases hr
  · rintro ⟨hq, hmem⟩
    refine ⟨_, hmem, ?_⟩
    rw [if_pos (by simp [isWithin_iff, hq]), List.drop_left]

/-- **A listing** has the files that are in the directory. -/
theorem mem_filesBelow {p : Path} (hp : t.locate p = .ok p.place) {q : Place} {c : Content} :
    (q, c) ∈ t.filesBelow p ↔ q ≠ [] ∧ t.get? (p.place ++ q) = some (.file c) := by
  unfold filesBelow
  rw [hp]
  dsimp only
  rw [List.mem_mergeSort, List.mem_filterMap]
  constructor
  · rintro ⟨⟨r, e⟩, hmem, he⟩
    obtain ⟨hr, hmem⟩ := mem_below.mp hmem
    cases e with
    | directory => cases he
    | file c' =>
      cases he
      exact ⟨hr, (get?_eq_some_iff (by simp [hr])).mpr hmem⟩
  · rintro ⟨hq, hget⟩
    exact ⟨(q, .file c), mem_below.mpr ⟨hq, (get?_eq_some_iff (by simp [hq])).mp hget⟩, rfl⟩

/-- No file is twice in a listing. -/
theorem nodup_filesBelow (t : Tree) (p : Path) : ((t.filesBelow p).map (·.1)).Nodup := by
  unfold filesBelow
  split
  · exact List.nodup_nil
  · next place hplace =>
    have hbelow : (t.below place).Pairwise fun a b => a.1 ≠ b.1 := by
      refine t.distinct.filterMap _ fun a b hne a' ha b' hb => ?_
      split_ifs at ha hb with hwa hwb
      cases ha
      cases hb
      simp only [Bool.and_eq_true, isWithin_iff] at hwa hwb
      obtain ⟨ra, hra⟩ := hwa.1
      obtain ⟨rb, hrb⟩ := hwb.1
      rw [← hra, ← hrb] at hne ⊢
      simpa using hne
    refine ((List.mergeSort_perm _ _).map _).nodup_iff.mpr (List.pairwise_map.mpr ?_)
    refine hbelow.filterMap _ fun a b hne a' ha b' hb => ?_
    split at ha <;> cases ha
    split at hb <;> cases hb
    exact hne

end Addon.File.Tree
