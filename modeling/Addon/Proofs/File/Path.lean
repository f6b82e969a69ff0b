import Addon.File.Tree
import Mathlib.Data.List.Infix

/-!
# Paths — where they lead

A path leads to a place by its parts alone: `..` goes back by one name. Where the files let one walk
along it is another matter.

## The architecture

* **`place`**, **`Passes`** — where a path leads, and the places on its way there.
* **`StaysInside`** — a path that leads into every directory from which it is taken.
* **`ofText_of_isPart`**, **`ofText_intercalate`** — names, alone or joined by slashes, are
  read back as themselves.
-/

namespace Addon.File.Path

/-- The place that a path leads to, if it leads anywhere. -/
def place (p : Path) : Place :=
  p.parts.foldl step []

theorem step_of_ne {part : String} (h : part ≠ "..") (here : Place) :
    step here part = here ++ [part] :=
  if_neg h

theorem foldl_step_of_not_mem {parts : List String} (h : ".." ∉ parts) (here : Place) :
    parts.foldl step here = here ++ parts := by
  induction parts generalizing here with
  | nil => simp
  | cons part rest ih =>
    rw [List.mem_cons, not_or] at h
    rw [List.foldl_cons, step_of_ne (Ne.symm h.1), ih h.2, List.append_assoc, List.singleton_append]

/-- A path passes a place, or ends there. -/
def Passes (p : Path) (q : Place) : Prop :=
  ∃ before, before <+: p.parts ∧ before.foldl step [] = q

theorem passes_place (p : Path) : p.Passes p.place :=
  ⟨p.parts, List.prefix_rfl, rfl⟩

theorem Passes.mono {p p' : Path} {q : Place} (h : p.Passes q) (hp : p.parts <+: p'.parts) :
    p'.Passes q := by
  obtain ⟨before, hbefore, hq⟩ := h
  exact ⟨before, hbefore.trans hp, hq⟩

theorem parent_prefix (p : Path) : p.parent.parts <+: p.parts :=
  List.dropLast_prefix p.parts

/-- Every step of a path is taken from a place that its parent passes. -/
theorem prefix_parent {p : Path} {before : List String} {part : String}
    (h : before ++ [part] <+: p.parts) : before <+: p.parent.parts := by
  obtain ⟨rest, hrest⟩ := h
  change before <+: p.parts.dropLast
  rw [← hrest, List.append_assoc, List.dropLast_append_of_ne_nil (by simp)]
  exact List.prefix_append _ _

/-- A place on the way is the end of it or is passed before. -/
theorem Passes.place_or_parent {p : Path} {q : Place} (h : p.Passes q) :
    q = p.place ∨ p.parent.Passes q := by
  obtain ⟨before, ⟨rest, hrest⟩, hq⟩ := h
  cases rest with
  | nil =>
    rw [List.append_nil] at hrest
    exact .inl (by rw [← hq, hrest]; rfl)
  | cons part rest =>
    have hpart : before ++ [part] <+: p.parts := ⟨rest, by rw [← hrest]; simp⟩
    exact .inr ⟨before, prefix_parent hpart, hq⟩

/-! ## Names in a directory -/

/-- A path that leads from every place to one in there. -/
def StaysInside (p : Path) : Prop :=
  p.start = .here ∧ ∀ here, here <+: p.parts.foldl step here

theorem staysInside_of_not_mem {p : Path} (hstart : p.start = .here) (h : ".." ∉ p.parts) :
    p.StaysInside :=
  ⟨hstart, fun here => foldl_step_of_not_mem h here ▸ List.prefix_append here _⟩

theorem parts_append {p q : Path} (h : q.start = .here) :
    (p.append q).parts = p.parts ++ q.parts := by
  unfold append
  rw [if_pos h]

theorem prefix_place_append {p q : Path} (h : q.StaysInside) : p.place <+: (p.append q).place := by
  unfold place
  rw [parts_append h.1, List.foldl_append]
  exact h.2 _

section Names

variable {p : Path} {name : String} {hpart : IsPart name}

theorem place_withName (h : name ≠ "..") :
    (p.withName name hpart).place = p.parent.place ++ [name] := by
  unfold place withName parent
  rw [List.foldl_append, List.foldl_cons, List.foldl_nil, step_of_ne h]

@[simp] theorem parent_withName : (p.withName name hpart).parent = p.parent :=
  Path.ext rfl List.dropLast_concat

@[simp] theorem name_withName : (p.withName name hpart).name = name := by
  simp [Path.name, withName]

theorem parts_eq_concat (h : p.parts ≠ []) : p.parts = p.parent.parts ++ [p.name] := by
  unfold Path.name parent
  rw [List.getLast?_eq_some_getLast h, Option.getD_some, List.dropLast_concat_getLast h]

theorem isPart_name (h : p.parts ≠ []) : IsPart p.name :=
  p.proper _ (name_mem h)

theorem place_eq_step (h : p.parts ≠ []) : p.place = step p.parent.place p.name := by
  unfold place
  rw [parts_eq_concat h, List.foldl_append]
  rfl

end Names

/-! ## Paths from texts -/

theorem splitOn_of_not_mem {sep : Char} {cs : List Char} (h : sep ∉ cs) :
    Text.splitOn sep cs = [cs] := by
  induction cs with
  | nil => rfl
  | cons c rest ih =>
    rw [List.mem_cons, not_or] at h
    unfold Text.splitOn
    rw [if_neg (Ne.symm h.1), ih h.2]

/-- A name that is read as a path is that name. -/
theorem ofText_of_isPart {part : String} (h : IsPart part) :
    (ofText part).start = .here ∧ (ofText part).parts = [part] := by
  obtain ⟨hslash, hidle⟩ := h
  have hstart : part.toList.takeWhile (· = '/') = [] := by
    cases hcs : part.toList with
    | nil => rfl
    | cons c rest =>
      rw [hcs] at hslash
      simp [Ne.symm (List.ne_of_not_mem_cons hslash)]
  simp [ofText, Start.ofText, hstart, splitOn_of_not_mem hslash, hidle]

theorem splitOn_append {sep : Char} {piece : List Char} (h : sep ∉ piece) (rest : List Char) :
    Text.splitOn sep (piece ++ sep :: rest) = piece :: Text.splitOn sep rest := by
  induction piece with
  | nil => simp [Text.splitOn]
  | cons c cs ih =>
    rw [List.mem_cons, not_or] at h
    rw [List.cons_append, Text.splitOn, if_neg (Ne.symm h.1), ih h.2]

theorem splitOn_intercalate {sep : Char} {pieces : List (List Char)} (hne : pieces ≠ [])
    (h : ∀ piece ∈ pieces, sep ∉ piece) : Text.splitOn sep ([sep].intercalate pieces) = pieces := by
  induction pieces with
  | nil => exact absurd rfl hne
  | cons piece rest ih =>
    obtain ⟨hpiece, hrest⟩ := List.forall_mem_cons.mp h
    cases rest with
    | nil => simpa using splitOn_of_not_mem hpiece
    | cons next rest =>
      rw [List.intercalate_cons_cons, List.append_assoc, List.singleton_append,
        splitOn_append hpiece, ih (by simp) hrest]

/-- **Names joined by slashes are read back.** -/
theorem ofText_intercalate {parts : List String} (hne : parts ≠ [])
    (h : ∀ part ∈ parts, IsPart part) : ofText ("/".intercalate parts) = ⟨.here, parts, h⟩ := by
  have hsplit : Text.splitOn '/' ("/".intercalate parts).toList = parts.map String.toList := by
    rw [String.toList_intercalate]
    refine splitOn_intercalate (by simpa using hne) fun piece hpiece => ?_
    obtain ⟨part, hpart, rfl⟩ := List.mem_map.mp hpiece
    exact (h part hpart).1
  -- A text that starts with a slash has an empty first piece, and no part is empty.
  have hstart : Start.ofText ("/".intercalate parts).toList = .here := by
    generalize ("/".intercalate parts).toList = cs at hsplit
    cases cs with
    | nil => rfl
    | cons c rest =>
      by_cases hc : c = '/'
      · obtain ⟨first, others, rfl⟩ := List.exists_cons_of_ne_nil hne
        rw [Text.splitOn, if_pos hc] at hsplit
        have hempty : first = "" := by
          rw [← String.toList_inj]
          exact (List.cons.inj hsplit).1.symm
        have hidle := (h first List.mem_cons_self).2
        rw [hempty] at hidle
        exact absurd hidle (by decide)
      · simp [Start.ofText, hc]
  refine Path.ext hstart ?_
  change ((Text.splitOn '/' _).map String.ofList).filter _ = parts
  have hsame : parts.map (String.ofList ∘ String.toList) = parts := by simp
  rw [hsplit, List.map_map, hsame, List.filter_eq_self]
  intro part hpart
  simp [(h part hpart).2]

/-- The last part of a path stays inside, unless it goes up. -/
theorem staysInside_name {p : Path} (hup : p.name ≠ "..") : (ofText p.name).StaysInside := by
  by_cases hname : p.name = ""
  · rw [hname]
    exact staysInside_of_not_mem rfl (by decide)
  · obtain ⟨hstart, hparts⟩ := ofText_of_isPart (isPart_name (parts_ne_nil_of_name hname))
    exact staysInside_of_not_mem hstart (by simpa [hparts] using Ne.symm hup)

end Addon.File.Path
