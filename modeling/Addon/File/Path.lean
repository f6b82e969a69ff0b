import Addon.Text.Split

/-!
# Paths

A path is a list of parts, taken from the root or from wherever one stands. Empty parts and `.` are
left out when a path is read; `..` stays, since what it leads to depends on the files. A path that
starts with exactly two slashes keeps both of them, and leads to the same place as with one.
-/

namespace Addon.File

/-- Where a path starts. -/
inductive Start where
  /-- Wherever one stands. -/
  | here
  | root
  /-- The root, written with two slashes. -/
  | doubleRoot
deriving DecidableEq, Repr

/-- The start that a text begins with. -/
def Start.ofText (cs : List Char) : Start :=
  match (cs.takeWhile (· = '/')).length with
  | 0 => .here
  | 2 => .doubleRoot
  | _ => .root

/-- What is written in front of the parts. -/
def Start.toText : Start → String
  | .here => ""
  | .root => "/"
  | .doubleRoot => "//"

/-- Parts that lead nowhere. -/
def isIdle (part : String) : Bool :=
  part = "" || part = "."

/-- A part of a path is a name: there is no slash in it, and it leads somewhere. -/
def IsPart (part : String) : Prop :=
  '/' ∉ part.toList ∧ isIdle part = false

instance (part : String) : Decidable (IsPart part) :=
  inferInstanceAs (Decidable (_ ∧ _))

@[ext]
structure Path where
  start : Start
  parts : List String
  proper : ∀ part ∈ parts, IsPart part := by decide +kernel
deriving DecidableEq, Repr

namespace Path

/-- The path that a text stands for. -/
def ofText (text : String) : Path where
  start := Start.ofText text.toList
  parts := ((Text.splitOn '/' text.toList).map String.ofList).filter fun part => !isIdle part
  proper part hpart := by
    obtain ⟨hpart, hidle⟩ := List.mem_filter.mp hpart
    obtain ⟨piece, hpiece, rfl⟩ := List.mem_map.mp hpart
    exact ⟨by simpa using Text.not_mem_of_mem_splitOn hpiece, by simpa using hidle⟩

/-- The text of a path. -/
def toText (p : Path) : String :=
  let text := p.start.toText ++ "/".intercalate p.parts
  if text = "" then "." else text

/-- A path followed by another. One from the root stands for itself. -/
def append (p q : Path) : Path :=
  if q.start = .here then
    ⟨p.start, p.parts ++ q.parts, fun part h =>
    (List.mem_append.mp h).elim (p.proper part) (q.proper part)⟩
  else q

/-- The path of a file in a directory. -/
def join (p : Path) (name : String) : Path :=
  p.append (ofText name)

/-- The last part. -/
def name (p : Path) : String :=
  p.parts.getLast?.getD ""

/-- The path without its last part. -/
def parent (p : Path) : Path :=
  ⟨p.start, p.parts.dropLast, fun part h => p.proper part (p.parts.dropLast_subset h)⟩

/-- The path with another last part. -/
def withName (p : Path) (name : String) (h : IsPart name) : Path where
  start := p.start
  parts := p.parts.dropLast ++ [name]
  proper part hpart := by
    rcases List.mem_append.mp hpart with hpart | hpart
    · exact p.proper part (p.parts.dropLast_subset hpart)
    · rwa [List.mem_singleton.mp hpart]

theorem parts_ne_nil_of_name {p : Path} (h : p.name ≠ "") : p.parts ≠ [] := by
  intro hnil
  refine h ?_
  unfold name
  rw [hnil]
  rfl

theorem name_mem {p : Path} (h : p.parts ≠ []) : p.name ∈ p.parts := by
  unfold name
  rw [List.getLast?_eq_some_getLast h]
  exact List.getLast_mem h

/-- The last part with a point before it and an ending behind it is a part again. -/
theorem isPart_affixed (p : Path) {ending : String} (hending : ending ≠ "")
    (hslash : '/' ∉ ending.toList) :
    IsPart ("." ++ p.name ++ ending) := by
  have hname : '/' ∉ p.name.toList := by
    by_cases hnil : p.parts = []
    · simp [name, hnil]
    · exact (p.proper _ (name_mem hnil)).1
  have hidle : ∀ text, isIdle text = true → text.toList.length < 2 := by simp +contextual [isIdle]
  refine ⟨by simp [hname, hslash], Bool.eq_false_iff.mpr fun h => ?_⟩
  have hshort := hidle _ h
  have hpos : 0 < ending.toList.length := List.length_pos_iff.mpr (by simpa using hending)
  simp only [String.toList_append, List.length_append] at hshort
  have hpoint : ".".toList.length = 1 := rfl
  omega

/-- What follows the last point of the last part, with the point. A point at one of the ends of the
part does not count. -/
def suffix (p : Path) : String :=
  let cs := p.name.toList
  let after := cs.reverse.takeWhile (· ≠ '.')
  if after.isEmpty || cs.length ≤ after.length + 1 then ""
  else String.ofList ('.' :: after.reverse)

/-- One step from a place given by its parts. -/
def step (here : List String) (part : String) : List String :=
  if part = ".." then here.dropLast else here ++ [part]

theorem forall_mem_foldl_step {P : String → Prop} {parts here : List String}
    (hparts : ∀ part ∈ parts, P part)
    (hhere : ∀ part ∈ here, P part) : ∀ part ∈ parts.foldl step here, P part := by
  induction parts generalizing here with
  | nil => exact hhere
  | cons first rest ih =>
    obtain ⟨hfirst, hrest⟩ := List.forall_mem_cons.mp hparts
    refine ih hrest fun part hpart => ?_
    unfold step at hpart
    split at hpart
    · exact hhere part (here.dropLast_subset hpart)
    · rcases List.mem_append.mp hpart with hpart | hpart
      · exact hhere part hpart
      · rwa [List.mem_singleton.mp hpart]

/-- The path from the root that a path means when one stands in a directory, without `..`. -/
def resolve (p standing : Path) : Path where
  start := .root
  parts := (standing.append p).parts.foldl step []
  proper := forall_mem_foldl_step (standing.append p).proper (by simp)

end Path

end Addon.File
