import Addon.File.Tree
import Addon.Proofs.File.Path
import Mathlib.Data.List.Find

/-!
# Trees — what each operation leaves at each place

Every operation on files is described by the entries that it leaves: at which places they change,
and what they are there. Nothing else is said about the table of a tree, so that proofs about
exports need not look at it.

## The architecture

* **`get?_set`**, **`get?_erase`**, **`get?_moveEntries`** — the three ways in which a tree changes.
* **`walk_eq_ok_iff`** — a walk ends at the place that its parts give, if it goes through
  directories with short names only. So it can be repeated in another tree by looking at
  the places it goes through.
* **`Supports`** — every place above a place is a directory. A walk supports
  the place where it ends.
* **`Grows`** — a tree has all that another one has, and further directories. Making directories is
  a growth; writing a file is a growth up to the place of the file.
-/

namespace Addon.File

variable {place here : Place} {parts : List String} {path way source target : Path}

namespace Tree

variable {t u : Tree} {p q : Place} {e : Entry} {c : Content} {r : Place}

/-! ## Places -/

@[simp] theorem get?_nil (t : Tree) : t.get? [] = some .directory := rfl

theorem get?_of_ne_nil (t : Tree) (h : q ≠ []) :
    t.get? q = (t.entries.find? fun e => e.1 = q).map (·.2) := by
  unfold get?
  rw [if_neg (by simpa using h)]

theorem get?_eq_none_of_entries (hq : q ≠ []) (h : ∀ e ∈ t.entries, e.1 ≠ q) : t.get? q = none := by
  rw [get?_of_ne_nil t hq, List.find?_eq_none.mpr fun e he => by simpa using h e he,
    Option.map_none]

theorem get?_set (h : t.HasRoom p e) (q : Place) :
    (t.set p e).get? q = if q = p then some e else t.get? q := by
  by_cases hq : q = []
  · subst hq
    rw [if_neg (Ne.symm h.1), get?_nil, get?_nil]
  rw [get?_of_ne_nil _ hq, get?_of_ne_nil _ hq, set, dif_pos h]
  simp only [List.find?_append, List.find?_filter]
  split_ifs with h
  · subst h
    rw [List.find?_eq_none.mpr (by simp)]
    simp
  · rw [@List.find?_congr _ _ (fun a => decide (a.1 = q)) _ fun a _ => by
      by_cases ha : a.1 = q
      · simp [ha, h]
      · simp [ha]]
    simp [Ne.symm h]

theorem HasRoom.free (h : t.HasRoom p (.file c)) : t.get? p ≠ some .directory := fun hdir => by
  cases h.2.2 hdir

/-- A file is never put in the place of a directory. -/
theorem directory_set (h : t.HasRoom p (.file c)) (hq : t.get? q = some .directory) :
    (t.set p (.file c)).get? q = some .directory := by
  have hne : q ≠ p := by
    rintro rfl
    exact h.free hq
  rw [get?_set h, if_neg hne, hq]

/-- By induction on how many places are paved: each lies in the one before. -/
theorem get?_pave (t : Tree) (place q : Place) :
    (t.pave place).get? q = if q <+: place then some .directory else t.get? q := by
  suffices h : ∀ n ≤ place.length, ∀ q,
      ((List.range n).foldl (fun t k => t.set (place.take (k + 1)) .directory) t).get? q =
        if q <+: place.take n then some .directory else t.get? q by
    simpa [pave] using h place.length (Nat.le_refl _) q
  intro n hn
  induction n with
  | zero =>
    intro q
    by_cases hq : q = [] <;> simp [hq]
  | succ n ih =>
    intro q
    have ih := ih (Nat.le_of_succ_le hn)
    have htake := List.take_succ_eq_append_getElem (Nat.lt_of_succ_le hn)
    rw [List.range_succ, List.foldl_append, List.foldl_cons, List.foldl_nil, get?_set, ih, htake]
    · simp only [List.prefix_concat_iff]
      split_ifs <;> grind
    · rw [htake]
      refine ⟨List.concat_ne_nil _ _, ?_, fun _ => rfl⟩
      rw [List.dropLast_concat, ih, if_pos List.prefix_rfl]

theorem get?_erase (t : Tree) (hp : p ≠ []) (q : Place) :
    (t.erase p).get? q = if p <+: q then none else t.get? q := by
  by_cases hq : q = []
  · subst hq
    rw [if_neg fun h => hp (List.prefix_nil.mp h), get?_nil, get?_nil]
  rw [get?_of_ne_nil _ hq, get?_of_ne_nil _ hq]
  simp only [erase, List.find?_filter]
  split_ifs with h
  · rw [List.find?_eq_none.mpr, Option.map_none]
    intro a _ ha
    simp only [Bool.not_eq_true', decide_eq_true_eq] at ha
    rw [ha.2, isWithin_iff.mpr h] at ha
    exact absurd ha.1 (by simp)
  · rw [@List.find?_congr _ _ (fun a => decide (a.1 = q)) _ fun a _ => by
      by_cases ha : a.1 = q
      · simp [ha, Bool.eq_false_iff.mpr (mt isWithin_iff.mp h)]
      · simp [ha]]

theorem Apart.symm (h : Apart p q) : Apart q p :=
  ⟨h.2, h.1⟩

theorem Apart.ne_nil (h : Apart p q) : p ≠ [] := by
  rintro rfl
  exact h.1 List.nil_prefix

/-- What lies in one of two places does not lie in the other. -/
theorem Apart.not_within (h : Apart p q) (hr : p <+: r) : ¬ q <+: r := fun hq =>
  (List.prefix_or_prefix_of_prefix hr hq).elim h.1 h.2

theorem moved_eq_iff {source target : Place} (hr : ¬ target <+: r) :
    moved source target r = q ↔
      if target <+: q then r = source ++ q.drop target.length else r = q ∧ ¬ source <+: q := by
  by_cases hs : source <+: r
  · obtain ⟨rest, rfl⟩ := hs
    rw [moved_append]
    split_ifs with hq
    · obtain ⟨way, rfl⟩ := hq
      simp
    · constructor
      · rintro rfl
        exact absurd (List.prefix_append _ _) hq
      · rintro ⟨rfl, h⟩
        exact absurd (List.prefix_append _ _) h
  · rw [moved_of_not_below hs]
    split_ifs with hq
    · constructor
      · rintro rfl
        exact absurd hq hr
      · rintro rfl
        exact absurd (List.prefix_append _ _) hs
    · exact ⟨fun h => ⟨h, h ▸ hs⟩, fun h => h.1⟩

theorem get?_moveEntries {source target : Place} (h : Apart source target)
    (hup : t.get? target.dropLast = some .directory) (q : Place) :
    (t.moveEntries source target).get? q =
      if target <+: q then t.get? (source ++ q.drop target.length)
      else if source <+: q then none else t.get? q := by
  by_cases hq : q = []
  · subst hq
    rw [if_neg fun hp => h.symm.ne_nil (List.prefix_nil.mp hp),
      if_neg fun hp => h.ne_nil (List.prefix_nil.mp hp), get?_nil, get?_nil]
  -- An entry that is found after the move was not in the target before, and its
  -- place says where it was.
  have hfind : (t.moveEntries source target).entries.find? (fun e => e.1 = q) =
      ((t.erase target).entries.find? fun e => moved source target e.1 = q).map
        fun e => (moved source target e.1, e.2) := by
    rw [moveEntries, dif_pos ⟨h, hup⟩, List.find?_map]
    rfl
  have hkeep : ∀ r, r ≠ [] → ((t.erase target).entries.find? fun e => e.1 = r).map (·.2) =
      if target <+: r then none else t.get? r := by
    intro r hr
    rw [← get?_erase t h.symm.ne_nil r, get?_of_ne_nil _ hr]
  rw [get?_of_ne_nil _ hq, hfind, Option.map_map]
  split_ifs with htarget hsource
  · have hne : source ++ q.drop target.length ≠ [] := by simp [h.ne_nil]
    rw [@List.find?_congr _ _ (fun e => decide (e.1 = source ++ q.drop target.length))
      _ fun e he => by
      simp only [moved_eq_iff (not_prefix_of_mem_erase he), if_pos htarget]]
    exact (hkeep _ hne).trans (if_neg (h.not_within (List.prefix_append _ _)))
  · rw [List.find?_eq_none.mpr, Option.map_none]
    intro e he hmoved
    rw [decide_eq_true_eq, moved_eq_iff (not_prefix_of_mem_erase he), if_neg htarget] at hmoved
    exact hmoved.2 hsource
  · rw [@List.find?_congr _ _ (fun e => decide (e.1 = q)) _ fun e he => by
      simp only [moved_eq_iff (not_prefix_of_mem_erase he), if_neg htarget, hsource,
        not_false_eq_true, and_true]]
    exact (hkeep _ hq).trans (if_neg htarget)

/-- A move changes nothing outside the two places. -/
theorem get?_moveEntries_outside {source target : Place} (h : Apart source target)
    (hsource : ¬ source <+: q)
    (htarget : ¬ target <+: q) : (t.moveEntries source target).get? q = t.get? q := by
  by_cases hup : t.get? target.dropLast = some .directory
  · rw [get?_moveEntries h hup, if_neg htarget, if_neg hsource]
  · rw [moveEntries, dif_neg fun hguard => hup hguard.2]

/-! ## Walks -/

theorem walk_append (t : Tree) (here : Place) (parts others : List String) :
    t.walk here (parts ++ others) = (t.walk here parts).bind fun place => t.walk place others := by
  induction parts generalizing here with
  | nil => rfl
  | cons part rest ih =>
    simp only [List.cons_append, walk]
    split
    · rfl
    · rfl
    · split
      · rfl
      · exact ih _

/-- Every part of a way can be walked: it is short and taken from a directory. -/
def Walkable (t : Tree) (here : Place) (parts : List String) : Prop :=
  ∀ before part, before ++ [part] <+: parts →
    t.get? (before.foldl Path.step here) = some .directory ∧ part.utf8ByteSize ≤ maxNameBytes

theorem walkable_cons {part : String} {rest : List String} :
    t.Walkable here (part :: rest) ↔
      t.get? here = some .directory ∧ part.utf8ByteSize ≤ maxNameBytes ∧
        t.Walkable (Path.step here part) rest := by
  constructor
  · intro h
    obtain ⟨hhere, hpart⟩ := h [] part (by simp)
    refine ⟨hhere, hpart, fun before other hb => ?_⟩
    simpa using h (part :: before) other (by simpa using hb)
  · rintro ⟨hhere, hpart, hrest⟩ before other hb
    cases before with
    | nil =>
      obtain rfl : other = part := by simpa using hb
      exact ⟨hhere, hpart⟩
    | cons first before =>
      rw [List.cons_append, List.cons_prefix_cons] at hb
      obtain ⟨rfl, hb⟩ := hb
      exact hrest before other hb

theorem Walkable.mono (h : t.Walkable here parts)
    (hdir : ∀ q, t.get? q = some .directory → u.get? q = some .directory) : u.Walkable here parts :=
  fun before part hb => ⟨hdir _ (h before part hb).1, (h before part hb).2⟩

/-- **Where a walk ends.** Its parts alone say where; the tree only says
whether it can be walked. -/
theorem walk_eq_ok_iff :
    t.walk here parts = .ok place ↔ t.Walkable here parts ∧ place = parts.foldl Path.step here := by
  induction parts generalizing here with
  | nil =>
    have hnil : t.Walkable here [] := fun before part h => by simp at h
    simp only [walk, Except.ok.injEq, List.foldl_nil, hnil, true_and, eq_comm]
  | cons part rest ih =>
    rw [walkable_cons, List.foldl_cons, walk]
    cases hhere : t.get? here with
    | none => simp
    | some e =>
      cases e with
      | file c => simp
      | directory =>
        simp only
        split
        · next hlong =>
          simp [Nat.not_le.mpr hlong]
        · next hshort =>
          rw [ih]
          simp [Nat.not_lt.mp hshort]

theorem Walkable.short (h : t.Walkable here parts) :
    ∀ part ∈ parts, part.utf8ByteSize ≤ maxNameBytes := by
  intro part hpart
  obtain ⟨before, after, rfl⟩ := List.append_of_mem hpart
  exact (h before part (by simp)).2

theorem walk_ne_nameTooLong (h : ∀ part ∈ parts, part.utf8ByteSize ≤ maxNameBytes) :
    t.walk here parts ≠ .error .nameTooLong := by
  induction parts generalizing here with
  | nil => simp [walk]
  | cons part rest ih =>
    obtain ⟨hpart, hrest⟩ := List.forall_mem_cons.mp h
    unfold walk
    split
    · simp
    · simp
    · rw [if_neg (Nat.not_lt.mpr hpart)]
      exact ih hrest

/-- Every place above a place is a directory. -/
def Supports (t : Tree) (q : Place) : Prop :=
  ∀ r, r <+: q → r ≠ q → t.get? r = some .directory

theorem Supports.dropLast (h : t.Supports here) : t.Supports here.dropLast := by
  intro r hr hne
  refine h r (hr.trans (List.dropLast_prefix here)) ?_
  rintro rfl
  exact hne (hr.eq_of_length (le_antisymm hr.length_le (by simp)))

theorem Supports.append (h : t.Supports here) (hhere : t.get? here = some .directory)
    (part : String) : t.Supports (here ++ [part]) := by
  intro r hr hne
  rcases List.prefix_concat_iff.mp hr with rfl | hr
  · exact absurd rfl hne
  · by_cases heq : r = here
    · rw [heq, hhere]
    · exact h r hr heq

/-- A walk goes up and down one name at a time, so that it has been at every place above its end. -/
theorem Supports.walk (h : t.Supports here)
    (hwalk : t.Walkable here parts) : t.Supports (parts.foldl Path.step here) := by
  induction parts generalizing here with
  | nil => exact h
  | cons part rest ih =>
    obtain ⟨hhere, -, hrest⟩ := walkable_cons.mp hwalk
    refine ih ?_ hrest
    unfold Path.step
    split
    · exact h.dropLast
    · exact h.append hhere part

theorem supports_nil (t : Tree) : t.Supports [] := fun _ hr hne =>
  absurd (List.prefix_nil.mp hr) hne

theorem Supports.up (h : t.Supports q) (hq : q ≠ []) : t.get? q.dropLast = some .directory := by
  refine h _ (List.dropLast_prefix q) fun heq => ?_
  have := congrArg List.length heq
  have := List.length_pos_iff.mpr hq
  simp only [List.length_dropLast] at *
  omega

/-- An entry stands in a directory, which is an entry again or the root. -/
theorem supports_of_get? (h : t.get? q = some e) : t.Supports q := by
  induction q using List.reverseRecOn generalizing e with
  | nil => exact supports_nil t
  | append_singleton front last ih =>
    have hup : t.get? front = some .directory := by
      by_cases hfront : front = []
      · rw [hfront, get?_nil]
      · have hground := (t.grounded _ ((get?_eq_some_iff (by simp)).mp h)).2
        rw [List.dropLast_concat] at hground
        exact (get?_eq_some_iff hfront).mpr (hground.resolve_left hfront)
    exact (ih hup).append hup last

theorem directory_above (hq : t.get? q = some .directory) (hr : r <+: q) :
    t.get? r = some .directory := by
  by_cases heq : r = q
  · rw [heq, hq]
  · exact supports_of_get? hq r hr heq

/-- A path that the files of a computer can have. -/
def Admissible (p : Path) : Prop :=
  hasNull p = false ∧ p.toText.utf8ByteSize ≤ maxPathBytes

theorem hasNull_eq_false_iff {p : Path} :
    hasNull p = false ↔ ∀ part ∈ p.parts, Char.ofNat 0 ∉ part.toList := by
  simp [hasNull]

theorem hasNull_withName {p : Path} {name : String} {hpart : IsPart name} (h : hasNull p = false)
    (hname : Char.ofNat 0 ∉ name.toList) : hasNull (p.withName name hpart) = false := by
  rw [hasNull_eq_false_iff] at h ⊢
  intro part hpart
  rcases List.mem_append.mp hpart with hpart | hpart
  · exact h part (List.mem_of_mem_dropLast hpart)
  · rwa [List.mem_singleton.mp hpart]

theorem noNull_name {p : Path} (h : hasNull p = false) : Char.ofNat 0 ∉ p.name.toList := by
  by_cases hname : p.name = ""
  · rw [hname]
    simp
  · exact hasNull_eq_false_iff.mp h _ (Path.name_mem (Path.parts_ne_nil_of_name hname))

theorem locate_eq_ok_iff :
    t.locate path = .ok place ↔
      Admissible path ∧ t.Walkable [] path.parts ∧ place = path.place := by
  unfold locate Admissible Path.place
  split
  · next hnull => simp [hnull]
  · next hnull =>
    split
    · next hlong => simp [Nat.not_le.mpr hlong]
    · next hshort =>
      rw [walk_eq_ok_iff]
      simp [Bool.not_eq_true _ ▸ hnull, Nat.not_lt.mp hshort]

theorem supports_of_locate (h : t.locate path = .ok place) :
    t.Supports place := by
  obtain ⟨-, hwalk, rfl⟩ := locate_eq_ok_iff.mp h
  exact (supports_nil t).walk hwalk

theorem up_of_locate (h : t.locate path = .ok path.place) (hne : path.place ≠ []) :
    t.get? path.place.dropLast = some .directory :=
  (supports_of_locate h).up hne

/-- There is room for a file or a directory where no directory is. -/
theorem hasRoom_of_locate (h : t.locate path = .ok place)
    (hfree : t.get? path.place ≠ some .directory) (e : Entry) : t.HasRoom path.place e := by
  have hne : path.place ≠ [] := fun hnil => hfree (by rw [hnil, get?_nil])
  obtain rfl := (locate_eq_ok_iff.mp h).2.2
  exact ⟨hne, (supports_of_locate h).up hne, fun hdir => absurd hdir hfree⟩

/-- A walk that is stopped, but not by a long name, comes to a place that is no directory. -/
theorem exists_obstacle {o : Obstacle} (h : t.walk here parts = .error o) (ho : o ≠ .nameTooLong) :
    ∃ before part, before ++ [part] <+: parts ∧
      t.get? (before.foldl Path.step here) ≠ some .directory := by
  induction parts generalizing here with
  | nil => cases h
  | cons part rest ih =>
    by_cases hhere : t.get? here = some .directory
    · rw [walk, hhere] at h
      dsimp only at h
      split at h
      · cases h
        exact absurd rfl ho
      · obtain ⟨before, other, hb, hne⟩ := ih h
        exact ⟨part :: before, other, by simpa using hb, hne⟩
    · exact ⟨[], part, by simp, hhere⟩

/-- From a directory that can be walked to, only a long name keeps one from going on. -/
theorem locate_of_parent {p : Path} (hne : p.parts ≠ []) (hwalk : t.Walkable [] p.parent.parts)
    (hdir : t.get? p.parent.place = some .directory) (hnull : hasNull p = false) :
    t.locate p = .ok p.place ∨ t.locate p = .error .nameTooLong := by
  have hparts := Path.parts_eq_concat hne
  by_cases htext : p.toText.utf8ByteSize ≤ maxPathBytes
  · by_cases hname : p.name.utf8ByteSize ≤ maxNameBytes
    · refine .inl (locate_eq_ok_iff.mpr ⟨⟨hnull, htext⟩, fun before part hb => ?_, rfl⟩)
      rw [hparts] at hb
      rcases List.prefix_concat_iff.mp hb with heq | hb
      · obtain ⟨rfl, hpart⟩ := List.append_inj' heq rfl
        obtain rfl := (List.cons.inj hpart).1
        exact ⟨hdir, hname⟩
      · exact hwalk before part hb
    · right
      unfold locate
      rw [if_neg (by simp [hnull]), if_neg (Nat.not_lt.mpr htext), hparts, walk_append,
        walk_eq_ok_iff.mpr ⟨hwalk, rfl⟩]
      change t.walk p.parent.place [p.name] = _
      rw [walk, hdir]
      simp only [if_pos (Nat.not_le.mp hname)]
  · right
    unfold locate
    rw [if_neg (by simp [hnull]), if_pos (Nat.not_le.mp htext)]

/-- What can be walked to lies in a directory that can be walked to. -/
theorem Walkable.parent {p : Path} (hne : p.parts ≠ []) (h : t.Walkable [] p.parts) :
    t.Walkable [] p.parent.parts ∧ t.get? p.parent.place = some .directory := by
  have hparts := Path.parts_eq_concat hne
  refine ⟨fun before part hb => h before part (hb.trans p.parent_prefix), ?_⟩
  exact (h p.parent.parts p.name (by rw [← hparts])).1

/-! ## Looks -/

theorem inspect_eq (t : Tree) (path : Path) :
    t.inspect path = match t.locate path with
      | .error o => .error o
      | .ok place => match t.get? place with
        | some e => .ok e
        | none => .error .missing := by
  unfold inspect
  cases t.locate path <;> rfl

theorem inspect_eq_ok_iff :
    t.inspect path = .ok e ↔ t.locate path = .ok path.place ∧ t.get? path.place = some e := by
  rw [inspect_eq]
  cases hplace : t.locate path with
  | error o => simp
  | ok place =>
    obtain rfl := (locate_eq_ok_iff.mp hplace).2.2
    dsimp only
    cases t.get? path.place <;> simp

theorem ask_eq_true_iff {question : Entry → Bool} :
    t.ask path question = .ok true ↔ ∃ e, t.inspect path = .ok e ∧ question e = true := by
  unfold ask
  split
  · next e he => simp [he]
  · next he => simp [he]
  · next o _ ho => simp [ho]

theorem isThere_eq_true_iff :
    t.isThere path = .ok true ↔ t.locate path = .ok path.place ∧ (t.get? path.place).isSome := by
  unfold isThere
  simp [ask_eq_true_iff, inspect_eq_ok_iff, Option.isSome_iff_exists]

/-- A path that can be walked in one tree is nowhere too long. -/
theorem isThere_ne_error (h : u.locate path = .ok place) (t : Tree) (e : FileError) :
    t.isThere path ≠ .error e := by
  obtain ⟨hadmissible, hwalk, -⟩ := locate_eq_ok_iff.mp h
  intro herror
  unfold isThere ask at herror
  split at herror
  · cases herror
  · next hlong =>
    rw [inspect_eq, locate, if_neg (by simp [hadmissible.1]), if_neg (Nat.not_lt.mpr hadmissible.2)]
      at hlong
    split at hlong
    · next o ho =>
      cases hlong
      exact walk_ne_nameTooLong hwalk.short ho
    · split at hlong <;> cases hlong
  · cases herror

theorem isDirectory_eq_true_iff :
    t.isDirectory path = .ok true ↔
      t.locate path = .ok path.place ∧ t.get? path.place = some .directory := by
  unfold isDirectory
  rw [ask_eq_true_iff]
  constructor
  · rintro ⟨e, he, hdir⟩
    cases e with
    | file c => cases hdir
    | directory => exact inspect_eq_ok_iff.mp he
  · exact fun h => ⟨.directory, inspect_eq_ok_iff.mpr h, rfl⟩

/-- A path that ends with a step up leads to a directory, if it leads anywhere. -/
theorem name_ne_up_of_file (h : t.inspect path = .ok (.file c)) :
    path.name ≠ ".." := by
  intro hup
  obtain ⟨hplace, hfile⟩ := inspect_eq_ok_iff.mp h
  have hne : path.parts ≠ [] := Path.parts_ne_nil_of_name (by rw [hup]; decide)
  -- The last step starts from a directory and ends at the one above it.
  have hfrom := (Walkable.parent hne (locate_eq_ok_iff.mp hplace).2.1).2
  have hdir : t.get? path.place = some .directory := by
    rw [Path.place_eq_step hne, Path.step, if_pos hup]
    exact directory_above hfrom (List.dropLast_prefix _)
  rw [hfile] at hdir
  cases hdir

/-! ## Operations -/

theorem write_eq_ok {content : Content} (h : t.write path content = .ok u) :
    t.locate path = .ok path.place ∧ t.HasRoom path.place (.file content) ∧
      u = t.set path.place (.file content) := by
  unfold write at h
  split at h
  · cases h
  · next place hplace =>
    obtain rfl := (locate_eq_ok_iff.mp hplace).2.2
    split at h
    · cases h
    · next hfree =>
      cases h
      exact ⟨hplace, hasRoom_of_locate hplace hfree _, rfl⟩

theorem removeDirectory_eq_ok (h : t.removeDirectory path = .ok u) :
    t.locate path = .ok path.place ∧ t.get? path.place = some .directory ∧
    u = t.erase path.place := by
  unfold removeDirectory at h
  split at h
  · cases h
  · next place hplace =>
    obtain rfl := (locate_eq_ok_iff.mp hplace).2.2
    split at h
    · cases h
    · cases h
    · next hdir =>
      cases h
      exact ⟨hplace, hdir, rfl⟩

/-- A tree has what another one has, and maybe further directories at places that a path passes. -/
def Grows (way : Path) (t u : Tree) : Prop :=
  ∀ q, u.get? q = t.get? q ∨
    (way.Passes q ∧ t.get? q = none ∧ u.get? q = some .directory)

theorem Grows.refl (way : Path) (t : Tree) : Grows way t t := fun _ => .inl rfl

theorem Grows.trans {v : Tree} (h : Grows way t u) (h' : Grows way u v) :
    Grows way t v := by
  intro q
  rcases h q with hq | ⟨hway, hnone, hdir⟩
  · rcases h' q with hq' | ⟨hway, hnone, hdir⟩
    · exact .inl (hq'.trans hq)
    · exact .inr ⟨hway, hq.symm.trans hnone, hdir⟩
  · rcases h' q with hq' | ⟨-, hnone', -⟩
    · exact .inr ⟨hway, hnone, hq'.trans hdir⟩
    · rw [hdir] at hnone'
      cases hnone'

theorem Grows.mono {way' : Path} (h : Grows way t u) (hway : way.parts <+: way'.parts) :
    Grows way' t u := fun q =>
  (h q).imp_right fun hq => ⟨hq.1.mono hway, hq.2⟩

theorem Grows.directory (h : Grows way t u) (hq : t.get? q = some .directory) :
    u.get? q = some .directory := by
  rcases h q with heq | ⟨-, hnone, -⟩
  · exact heq.trans hq
  · rw [hq] at hnone
    cases hnone

/-- Files neither come nor go. -/
theorem Grows.file_iff (h : Grows way t u) :
    u.get? q = some (.file c) ↔ t.get? q = some (.file c) := by
  rcases h q with heq | ⟨-, hnone, hdir⟩
  · rw [heq]
  · simp [hnone, hdir]

/-- A directory is made where nothing is, and left where one is. -/
theorem ensureDirectory_eq (t : Tree) (path : Path) :
    t.ensureDirectory path = match t.locate path with
      | .error o => .error (errorOf .create path o)
      | .ok _ => match t.get? path.place with
        | none => .ok (t.set path.place .directory)
        | some .directory => .ok t
        | some (.file _) => .error .alreadyExists := by
  unfold ensureDirectory makeDirectory
  cases hplace : t.locate path with
  | error o =>
    dsimp only
    split
    · next hdir =>
      rw [isDirectory_eq_true_iff, hplace] at hdir
      cases hdir.1
    · rfl
  | ok place =>
    obtain rfl := (locate_eq_ok_iff.mp hplace).2.2
    dsimp only
    rcases he : t.get? path.place with _ | (_ | c)
    · rfl
    · have hdir : t.isDirectory path = .ok true := isDirectory_eq_true_iff.mpr ⟨hplace, he⟩
      simp [hdir]
    · have hfile : t.isDirectory path ≠ .ok true := fun h => by
        rw [isDirectory_eq_true_iff, he] at h
        cases h.2
      simp only [Option.isSome_some, if_true]

/-- The directories above one are made if they are missing. -/
theorem ensureUpTo_succ (t : Tree) (n : Nat) (path : Path) :
    t.ensureUpTo (n + 1) path =
      if t.locate path = .error .missing then
        (t.ensureUpTo n path.parent).bind fun v => v.ensureDirectory path
      else t.ensureDirectory path := by
  rw [ensureUpTo]
  unfold makeDirectory
  cases hplace : t.locate path with
  | error o =>
    cases o with
    | missing =>
      simp only [errorOf, if_true]
      cases t.ensureUpTo n path.parent <;> rfl
    | _ =>
      rw [if_neg (by simp)]
      unfold ensureDirectory makeDirectory
      rw [hplace]
      rfl
  | ok place =>
    rw [if_neg (by simp)]
    unfold ensureDirectory makeDirectory
    rw [hplace]
    dsimp only
    by_cases hsome : (t.get? place).isSome = true
    · rw [if_pos hsome]
    · rw [if_neg hsome]

theorem grows_ensureDirectory (h : t.ensureDirectory path = .ok u) : Grows path t u := by
  rw [ensureDirectory_eq] at h
  split at h
  · cases h
  · next hplace =>
    split at h
    · next hnone =>
      cases h
      intro q
      rw [get?_set (hasRoom_of_locate hplace (by simp [hnone]) _)]
      split_ifs with hq
      · exact .inr ⟨hq ▸ path.passes_place, hq ▸ hnone, rfl⟩
      · exact .inl rfl
    · cases h
      exact .refl path t
    · cases h

/-- **Making directories.** By induction on how many of them may be made, from the
last one to the first. -/
theorem grows_ensureUpTo {n : Nat} (h : t.ensureUpTo n path = .ok u) : Grows path t u := by
  induction n generalizing t u path with
  | zero => exact grows_ensureDirectory h
  | succ n ih =>
    rw [ensureUpTo_succ] at h
    split at h
    · cases hbefore : t.ensureUpTo n path.parent with
      | error e => rw [hbefore] at h; cases h
      | ok v =>
        rw [hbefore] at h
        exact ((ih hbefore).mono path.parent_prefix).trans (grows_ensureDirectory h)
    · exact grows_ensureDirectory h

theorem grows_ensureDirectories (h : t.ensureDirectories path = .ok u) : Grows path t u :=
  grows_ensureUpTo h

theorem directory_ensureDirectory (h : t.ensureDirectory path = .ok u) :
    u.get? path.place = some .directory := by
  rw [ensureDirectory_eq] at h
  split at h
  · cases h
  · next hplace =>
    split at h
    · next hnone =>
      cases h
      rw [get?_set (hasRoom_of_locate hplace (by simp [hnone]) _), if_pos rfl]
    · next hdir =>
      cases h
      exact hdir
    · cases h

/-- The directory is there in the end. -/
theorem directory_ensureDirectories (h : t.ensureDirectories path = .ok u) :
    u.get? path.place = some .directory := by
  unfold ensureDirectories at h
  generalize path.parts.length = n at h
  cases n with
  | zero => exact directory_ensureDirectory h
  | succ n =>
    rw [ensureUpTo_succ] at h
    split at h
    · cases hbefore : t.ensureUpTo n path.parent with
      | error e => rw [hbefore] at h; cases h
      | ok v =>
        rw [hbefore] at h
        exact directory_ensureDirectory h
    · exact directory_ensureDirectory h

/-- No directory has a null character in its path. -/
theorem ensureDirectories_of_null (h : hasNull path = true) :
    t.ensureDirectories path = .error (.nullCharacter .create) := by
  have hlocate : t.locate path = .error .nullCharacter := by
    unfold locate
    rw [if_pos h]
  have hensure : t.ensureDirectory path = .error (.nullCharacter .create) := by
    rw [ensureDirectory_eq, hlocate]
    rfl
  unfold ensureDirectories
  generalize path.parts.length = n
  cases n with
  | zero => exact hensure
  | succ n =>
    rw [ensureUpTo_succ, hlocate, if_neg (by simp)]
    exact hensure

/-- The path that a copy gets. -/
def landing (t : Tree) (source target : Path) : Path :=
  match t.isDirectory target with
  | .ok true => target.join source.name
  | _ => target

/-- Copies a file to a path, whatever is there. -/
def copyTo (t : Tree) (source target : Path) : Except FileError Tree :=
  if hasNull source || hasNull target then .error (.nullCharacter .inspect)
  else match t.inspect source with
  | .error o => .error (errorOf .open source o)
  | .ok .directory => .error .isADirectory
  | .ok (.file content) =>
    if t.locate source = t.locate target ∧ (t.locate source).isOk then .error .sameFile
    else t.write target content

theorem copyTo_eq (t : Tree) (source target : Path) :
    t.copyTo source target = (show Except FileError Tree from do
      if hasNull source || hasNull target then throw (.nullCharacter .inspect)
      match t.inspect source with
      | .error o => throw (errorOf .open source o)
      | .ok .directory => throw .isADirectory
      | .ok (.file content) =>
        match t.locate source, t.locate target with
        | .ok from', .ok to' => if from' = to' then throw .sameFile else t.write target content
        | _, _ => t.write target content) := by
  unfold copyTo
  by_cases hnull : (hasNull source || hasNull target) = true
  · simp only [hnull, if_true]
    rfl
  · simp only [hnull, if_false, Bool.false_eq_true]
    rcases t.inspect source with o | (_ | content)
    · rfl
    · rfl
    · rcases t.locate source with o | from' <;> rcases t.locate target with o' | to'
      all_goals simp [Except.isOk, Except.toBool]
      rfl

theorem copy_eq (t : Tree) (source target : Path) :
    t.copy source target = t.copyTo source (t.landing source target) :=
  (t.copyTo_eq source (t.landing source target)).symm

theorem copyTo_eq_ok (h : t.copyTo source target = .ok u) :
    ∃ content, t.inspect source = .ok (.file content) ∧ t.write target content = .ok u := by
  unfold copyTo at h
  split at h
  · cases h
  · split at h
    · cases h
    · cases h
    · next content hsource =>
      split at h
      · cases h
      · exact ⟨content, hsource, h⟩

/-- **Moving a directory** puts all that lies in it at the other place. -/
theorem move_eq_ok (h : t.move source target = .ok u)
    (hsource : t.get? source.place = some .directory) (hne : source.place ≠ target.place) :
    t.locate target = .ok target.place ∧ (isNamed source ∧ isNamed target) ∧
      u = t.moveEntries source.place target.place := by
  unfold move at h
  dsimp only at h
  split at h
  · cases h
  · cases h
  · next from' to' hfrom hto =>
    obtain rfl := (locate_eq_ok_iff.mp hfrom).2.2
    obtain rfl := (locate_eq_ok_iff.mp hto).2.2
    rw [hsource] at h
    split at h
    · cases h
    · next hnamed =>
      refine ⟨hto, by simpa using hnamed, ?_⟩
      rcases hto : t.get? target.place with _ | (_ | content) <;> rw [hto] at h
      · cases h
        rfl
      · dsimp only at h
        split at h
        · cases h
          rfl
        · cases h
      · cases h

/-- A directory cannot be moved to a path that is too long. -/
theorem move_of_nameTooLong (hsource : t.locate source = .ok place)
    (htarget : t.locate target = .error .nameTooLong) :
    t.move source target = .error .nameTooLong := by
  unfold move
  simp [hsource, htarget]

/-- A directory can be moved to a place where nothing is. -/
theorem move_of_none (hsource : t.locate source = .ok source.place)
    (htarget : t.locate target = .ok target.place) (hnamed : isNamed source ∧ isNamed target)
    (hdir : t.get? source.place = some .directory) (hnone : t.get? target.place = none) :
    t.move source target = .ok (t.moveEntries source.place target.place) := by
  unfold move
  simp [hsource, htarget, hnamed, hdir, hnone]

/-! ## Places in which nothing lies -/

/-- Nothing lies in a place. -/
def Clear (t : Tree) (z : Place) : Prop :=
  ∀ q, z <+: q → t.get? q = none

theorem clear_of_no_entry {z : Place} (hz : t.get? z ≠ some .directory)
    (hfile : ∀ c, t.get? z ≠ some (.file c)) : t.Clear z := by
  intro q hq
  cases he : t.get? q with
  | none => rfl
  | some e =>
    by_cases heq : z = q
    · subst heq
      cases e with
      | directory => exact absurd he hz
      | file c => exact absurd he (hfile c)
    · exact absurd (supports_of_get? he z hq heq) hz

/-- Steps up go out of directories that are there. -/
def Firm (t : Tree) (p : Path) : Prop :=
  ∀ before, before ++ [".."] <+: p.parts → t.get? (before.foldl Path.step []) = some .directory

instance (t : Tree) (p : Path) : Decidable (t.Firm p) :=
  decidable_of_iff (∀ before ∈ p.parts.inits, before ++ [".."] <+: p.parts →
      t.get? (before.foldl Path.step []) = some .directory) <| by
    simp only [List.mem_inits]
    exact ⟨fun h before hb => h before ((List.prefix_append _ _).trans hb) hb,
      fun h before _ hb => h before hb⟩

theorem Firm.withName {p : Path} {name : String} {hpart : IsPart name} (h : t.Firm p)
    (hname : name ≠ "..") :
    t.Firm (p.withName name hpart) := by
  intro before hb
  rcases List.prefix_concat_iff.mp hb with heq | hb
  · exact absurd (List.cons.inj (List.append_inj' heq rfl).2).1.symm hname
  · exact h before (hb.trans (List.dropLast_prefix _))

/-- A path that is stopped leads to a place in which nothing lies. -/
theorem clear_of_obstacle {p : Path} (hfirm : t.Firm p) (hnull : hasNull p = false) {o : Obstacle}
    (ho : o ≠ .nameTooLong) (hp : t.locate p = .error o) :
    t.Clear p.place := by
  unfold locate at hp
  rw [if_neg (by simp [hnull])] at hp
  split at hp
  · cases hp
    exact absurd rfl ho
  obtain ⟨before, part, ⟨rest, hparts⟩, hne⟩ := exists_obstacle hp ho
  rw [List.append_assoc, List.singleton_append] at hparts
  -- From the obstacle on the path goes down: a step up would go out of a directory below it.
  have hdown : ".." ∉ part :: rest := by
    intro hmem
    obtain ⟨down, after, hsplit, hup⟩ := List.eq_append_cons_of_mem hmem
    have hdir := hfirm (before ++ down) ⟨after, by rw [← hparts, hsplit]; simp⟩
    rw [List.foldl_append, Path.foldl_step_of_not_mem hup] at hdir
    exact hne (directory_above hdir (List.prefix_append _ _))
  have hplace : p.place = before.foldl Path.step [] ++ part :: rest := by
    unfold Path.place
    rw [← hparts, List.foldl_append, Path.foldl_step_of_not_mem hdown]
  intro q hq
  rw [hplace] at hq
  cases he : t.get? q with
  | none => rfl
  | some e =>
    refine absurd (supports_of_get? he _ ((List.prefix_append _ _).trans hq) ?_) hne
    rintro rfl
    have := hq.length_le
    rw [List.length_append, List.length_cons] at this
    omega

end Tree

end Addon.File
