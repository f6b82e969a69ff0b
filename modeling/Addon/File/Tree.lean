import Addon.File.Path
import Addon.Text.Encoding
import Addon.Text.Quoted

/-!
# Trees of files

The files and directories of a computer as a table from places to entries. A place is the list of
names on the way from the root, which is always there and is a directory. No place has two entries,
and every entry stands in a directory. Operations that fail leave the tree as it is.
-/

namespace Addon.File

/-- What a file holds. -/
inductive Content where
  | data (bytes : List UInt8)
  /-- An archive of named files. -/
  | archive (members : List (String × List UInt8))
deriving DecidableEq, Repr

inductive Entry where
  | directory
  | file (content : Content)
deriving DecidableEq, Repr

def Entry.isFile : Entry → Bool
  | .file _ => true
  | .directory => false

/-- The names on the way from the root. -/
abbrev Place := List String

/-- The order of places: name by name. -/
def Place.le : Place → Place → Bool
  | [], _ => true
  | _ :: _, [] => false
  | a :: rest, b :: others => if a = b then Place.le rest others else a < b

/-- Each entry is in a directory: in the root or in another entry. -/
def Grounded (entries : List (Place × Entry)) : Prop :=
  ∀ e ∈ entries, e.1 ≠ [] ∧ (e.1.dropLast = [] ∨ (e.1.dropLast, .directory) ∈ entries)

instance (entries : List (Place × Entry)) : Decidable (Grounded entries) :=
  inferInstanceAs (Decidable (∀ e ∈ entries, _))

structure Tree where
  entries : List (Place × Entry) := []
  distinct : entries.Pairwise fun a b => a.1 ≠ b.1 := by decide +kernel
  grounded : Grounded entries := by decide +kernel
deriving DecidableEq, Repr

/-- What was asked of a path with a null character in it. -/
inductive Action where
  | open
  | create
  | inspect
  | resolve
  | move
deriving DecidableEq, Repr

/-- Why an operation on files fails. -/
inductive FileError where
  | notFound (path : String)
  /-- There is nothing to be moved, or nowhere to move it. -/
  | moveNotFound (path target : String)
  | noExport (path : String)
  | notADirectory
  | isADirectory
  | alreadyExists
  | notEmpty
  | nameTooLong
  | sameFile
  /-- A directory that is in use, such as the one above another. -/
  | busy
  /-- A path without a last part has no name to change. -/
  | noName (path : String)
  | nullCharacter (action : Action)
deriving DecidableEq, Repr

def FileError.message : FileError → String
  | .notFound path => "[Errno 2] No such file or directory: " ++ Text.quoted path
  | .moveNotFound path target =>
    "[Errno 2] No such file or directory: " ++ Text.quoted path ++ " -> " ++ Text.quoted target
  | .noExport path => s!"Export directory not found: {path}"
  | .notADirectory => "Not a directory"
  | .isADirectory => "Is a directory"
  | .alreadyExists => "File exists"
  | .notEmpty => "Directory not empty"
  | .nameTooLong => "File name too long"
  | .sameFile => "are the same file"
  | .busy => "Device or resource busy"
  | .noName path => "PosixPath(" ++ Text.quoted path ++ ") has an empty name"
  | .nullCharacter .open => "embedded null byte"
  | .nullCharacter .create => "mkdir: embedded null character in path"
  | .nullCharacter .inspect => "stat: embedded null character in path"
  | .nullCharacter .resolve => "lstat: embedded null character in path"
  | .nullCharacter .move => "replace: embedded null character in src"

/-- What stands in the way to a place. -/
inductive Obstacle where
  | missing
  | notADirectory
  | nameTooLong
  | nullCharacter
deriving DecidableEq, Repr

/-- The number of bytes that a name may have. -/
def maxNameBytes : Nat := 255

/-- The number of bytes that a path may have. -/
def maxPathBytes : Nat := 4095

namespace Tree

/-- The entry at a place. -/
def get? (t : Tree) (place : Place) : Option Entry :=
  if place.isEmpty then some .directory
  else (t.entries.find? fun e => e.1 = place).map (·.2)

/-- What is at a place is its entry in the table. -/
theorem get?_eq_some_iff {t : Tree} {place : Place} (hne : place ≠ []) {e : Entry} :
    t.get? place = some e ↔ (place, e) ∈ t.entries := by
  have hsame : ∀ a ∈ t.entries, ∀ b ∈ t.entries, a.1 = b.1 → a = b := fun a ha b hb =>
    List.Pairwise.forall_of_forall_of_flip (R := fun a b => a.1 = b.1 → a = b) (fun _ _ _ => rfl)
      (t.distinct.imp fun h heq => absurd heq h)
      (t.distinct.imp fun h heq => absurd heq.symm h) ha hb
  rw [get?, if_neg (by simpa using hne), Option.map_eq_some_iff]
  constructor
  · rintro ⟨f, hf, rfl⟩
    obtain rfl : f.1 = place := by simpa using List.find?_some hf
    exact List.mem_of_find?_eq_some hf
  · intro hmem
    have hfound : (t.entries.find? fun f => f.1 = place).isSome :=
      List.find?_isSome.mpr ⟨(place, e), hmem, by simp⟩
    obtain ⟨f, hf⟩ := Option.isSome_iff_exists.mp hfound
    have hplace : f.1 = place := by simpa using List.find?_some hf
    exact ⟨f, hf, by rw [hsame f (List.mem_of_find?_eq_some hf) _ hmem hplace]⟩

/-- There is room for an entry at a place: it is in a directory, and only another directory can
take the place of one. -/
def HasRoom (t : Tree) (place : Place) (entry : Entry) : Prop :=
  place ≠ [] ∧ t.get? place.dropLast = some .directory ∧
    (t.get? place = some .directory → entry = .directory)

instance (t : Tree) (place : Place) (entry : Entry) : Decidable (t.HasRoom place entry) :=
  inferInstanceAs (Decidable (_ ∧ _ ∧ _))

theorem HasRoom.grounded {t : Tree} {place : Place} {entry : Entry} (h : t.HasRoom place entry) :
    Grounded (t.entries.filter (fun e => e.1 ≠ place) ++ [(place, entry)]) := by
  -- A directory stays: its place is another one, or a directory comes there.
  have hkept : ∀ q, q ≠ [] → (q, Entry.directory) ∈ t.entries →
      (q, .directory) ∈ t.entries.filter (fun e => e.1 ≠ place) ++ [(place, entry)] := by
    intro q hne hq
    by_cases heq : q = place
    · subst heq
      simp [h.2.2 ((get?_eq_some_iff hne).mpr hq)]
    · simp [hq, heq]
  intro e he
  rcases List.mem_append.mp he with he | he
  · obtain ⟨hne, hup⟩ := t.grounded e (List.mem_filter.mp he).1
    by_cases hnil : e.1.dropLast = []
    · exact ⟨hne, .inl hnil⟩
    · exact ⟨hne, .inr (hkept _ hnil (hup.resolve_left hnil))⟩
  · obtain rfl := List.mem_singleton.mp he
    by_cases hnil : place.dropLast = []
    · exact ⟨h.1, .inl hnil⟩
    · exact ⟨h.1, .inr (hkept _ hnil ((get?_eq_some_iff hnil).mp h.2.1))⟩

/-- Puts an entry at a place, if there is room for it. -/
def set (t : Tree) (place : Place) (entry : Entry) : Tree :=
  if h : t.HasRoom place entry then
    { entries := t.entries.filter (fun e => e.1 ≠ place) ++ [(place, entry)]
      distinct := by
        refine List.pairwise_append.mpr ⟨t.distinct.filter _, List.pairwise_singleton _ _, ?_⟩
        intro a ha b hb
        obtain rfl := List.mem_singleton.mp hb
        simpa using (List.mem_filter.mp ha).2
      grounded := h.grounded }
  else t

/-- Puts directories at a place and at all places on the way to it. -/
def pave (t : Tree) (place : Place) : Tree :=
  (List.range place.length).foldl (fun t n => t.set (place.take (n + 1)) .directory) t

/-- One place lies in another or is the same. -/
def isWithin (outer place : Place) : Bool :=
  outer.isPrefixOf place

theorem isWithin_iff {outer place : Place} : isWithin outer place = true ↔ outer <+: place :=
  List.isPrefixOf_iff_prefix

/-- Takes away what is at a place, with all that lies in it. -/
def erase (t : Tree) (place : Place) : Tree where
  entries := t.entries.filter fun e => !isWithin place e.1
  distinct := t.distinct.filter _
  grounded e he := by
    obtain ⟨hmem, hout⟩ := List.mem_filter.mp he
    obtain ⟨hne, hup⟩ := t.grounded e hmem
    refine ⟨hne, hup.imp_right fun hup => List.mem_filter.mpr ⟨hup, ?_⟩⟩
    simp only [Bool.not_eq_true', Bool.eq_false_iff, ne_eq, isWithin_iff] at hout ⊢
    exact fun hin => hout (hin.trans (List.dropLast_prefix _))

/-- The place at the end of a way. All places on the way have to be directories. -/
def walk (t : Tree) : Place → List String → Except Obstacle Place
  | here, [] => .ok here
  | here, part :: rest =>
    match t.get? here with
    | none => .error .missing
    | some (.file _) => .error .notADirectory
    | some .directory =>
      if maxNameBytes < part.utf8ByteSize then .error .nameTooLong
      else t.walk (Path.step here part) rest

/-- A path that no file can have. -/
def hasNull (p : Path) : Bool :=
  p.parts.any fun part => part.toList.contains (Char.ofNat 0)

/-- The place of a path from the root. -/
def locate (t : Tree) (p : Path) : Except Obstacle Place :=
  if hasNull p then .error .nullCharacter
  else if maxPathBytes < p.toText.utf8ByteSize then .error .nameTooLong
  else t.walk [] p.parts

/-- The entry of a path. -/
def inspect (t : Tree) (p : Path) : Except Obstacle Entry := do
  let place ← t.locate p
  match t.get? place with
  | some entry => return entry
  | none => throw .missing

/-- The error that an obstacle is for an action on a path. -/
def errorOf (action : Action) (p : Path) : Obstacle → FileError
  | .missing => .notFound p.toText
  | .notADirectory => .notADirectory
  | .nameTooLong => .nameTooLong
  | .nullCharacter => .nullCharacter action

/-- A question about the entry of a path. What is not there answers no. -/
def ask (t : Tree) (p : Path) (question : Entry → Bool) : Except FileError Bool :=
  match t.inspect p with
  | .ok entry => .ok (question entry)
  | .error .nameTooLong => .error .nameTooLong
  | .error _ => .ok false

def isFile (t : Tree) (p : Path) : Except FileError Bool :=
  t.ask p Entry.isFile

def isDirectory (t : Tree) (p : Path) : Except FileError Bool :=
  t.ask p fun e => !e.isFile

def isThere (t : Tree) (p : Path) : Except FileError Bool :=
  t.ask p fun _ => true

/-- What a file holds. -/
def read (t : Tree) (p : Path) : Except FileError Content :=
  match t.inspect p with
  | .ok (.file content) => .ok content
  | .ok .directory => .error .isADirectory
  | .error o => .error (errorOf .open p o)

/-- Writes a file. -/
def write (t : Tree) (p : Path) (content : Content) : Except FileError Tree :=
  match t.locate p with
  | .error o => .error (errorOf .open p o)
  | .ok place =>
    if t.get? place = some .directory then .error .isADirectory
    else .ok (t.set place (.file content))

/-- Makes a directory in one that is there. -/
def makeDirectory (t : Tree) (p : Path) : Except FileError Tree :=
  match t.locate p with
  | .error o => .error (errorOf .create p o)
  | .ok place =>
    if (t.get? place).isSome then .error .alreadyExists
    else .ok (t.set place .directory)

/-- Makes a directory unless it is there. -/
def ensureDirectory (t : Tree) (p : Path) : Except FileError Tree :=
  match t.makeDirectory p with
  | .ok t => .ok t
  | .error e =>
    match t.isDirectory p with
    | .ok true => .ok t
    | _ => .error e

/-- Makes a directory and the directories it lies in, unless they are there. The number bounds how
many of them are made. -/
def ensureUpTo (t : Tree) : Nat → Path → Except FileError Tree
  | 0, p => t.ensureDirectory p
  | n + 1, p =>
    match t.makeDirectory p with
    | .ok t => .ok t
    | .error (.notFound _) =>
      match t.ensureUpTo n p.parent with
      | .ok t => t.ensureDirectory p
      | .error e => .error e
    | .error e =>
      match t.isDirectory p with
      | .ok true => .ok t
      | _ => .error e

/-- Makes a directory and the directories it lies in, unless they are there. -/
def ensureDirectories (t : Tree) (p : Path) : Except FileError Tree :=
  t.ensureUpTo p.parts.length p

/-- The entries that lie in a place, with the ways to them from there. -/
def below (t : Tree) (place : Place) : List (Place × Entry) :=
  t.entries.filterMap fun e =>
    if isWithin place e.1 && e.1 ≠ place then some (e.1.drop place.length, e.2) else none

/-- Removes a directory with all that is in it. -/
def removeDirectory (t : Tree) (p : Path) : Except FileError Tree :=
  match t.locate p with
  | .error o => .error (errorOf .open p o)
  | .ok place =>
    match t.get? place with
    | none => .error (.notFound p.toText)
    | some (.file _) => .error .notADirectory
    | some .directory => .ok (t.erase place)

/-- Neither of two places lies in the other. -/
def Apart (p q : Place) : Prop :=
  ¬ p <+: q ∧ ¬ q <+: p

instance (p q : Place) : Decidable (Apart p q) :=
  inferInstanceAs (Decidable (_ ∧ _))

/-- The place that the entry of a place goes to. -/
def moved (source target q : Place) : Place :=
  if isWithin source q then target ++ q.drop source.length else q

theorem moved_append (source target rest : Place) :
    moved source target (source ++ rest) = target ++ rest := by
  rw [moved, if_pos (isWithin_iff.mpr (List.prefix_append _ _)), List.drop_left]

theorem moved_of_not_below {source q : Place} (h : ¬ source <+: q) (target : Place) :
    moved source target q = q :=
  if_neg (mt isWithin_iff.mp h)

theorem not_prefix_of_mem_erase {t : Tree} {place : Place} {e : Place × Entry}
    (h : e ∈ (t.erase place).entries) : ¬ place <+: e.1 := by
  simpa [isWithin_iff, Bool.eq_false_iff] using (List.mem_filter.mp h).2

/-- Entries outside a place are moved to different places. -/
theorem moved_ne {source target p q : Place} (hp : ¬ target <+: p) (hq : ¬ target <+: q)
    (hne : p ≠ q) :
    moved source target p ≠ moved source target q := by
  unfold moved
  split <;> split
  · next hsp hsq =>
    obtain ⟨r, rfl⟩ := isWithin_iff.mp hsp
    obtain ⟨r', rfl⟩ := isWithin_iff.mp hsq
    simpa using hne
  · exact fun heq => hq ⟨_, heq⟩
  · exact fun heq => hp ⟨_, heq.symm⟩
  · exact hne

/-- A move takes no entry out of its directory: what lies in the source goes with it, and the
directory of the target is not moved. -/
theorem grounded_moved (t : Tree) {source target : Place} (h : Apart source target)
    (hup : t.get? target.dropLast = some .directory) :
    Grounded ((t.erase target).entries.map fun e => (moved source target e.1, e.2)) := by
  have hmoved : ∀ q, (q, Entry.directory) ∈ (t.erase target).entries →
      (moved source target q, .directory) ∈
      (t.erase target).entries.map fun e => (moved source target e.1, e.2) := fun q hq =>
    List.mem_map_of_mem hq
  have hsource : source ≠ [] := fun hnil => h.1 (hnil ▸ List.nil_prefix)
  have htarget : target ≠ [] := fun hnil => h.2 (hnil ▸ List.nil_prefix)
  intro f hf
  obtain ⟨e, he, rfl⟩ := List.mem_map.mp hf
  obtain ⟨hne, habove⟩ := (t.erase target).grounded e he
  by_cases hin : source <+: e.1
  · obtain ⟨rest, hrest⟩ := hin
    rw [← hrest, moved_append]
    rw [← hrest] at habove
    refine ⟨by simp [htarget], ?_⟩
    by_cases hnil : rest = []
    · rw [hnil, List.append_nil]
      by_cases hroot : target.dropLast = []
      · exact .inl hroot
      · have hshort : ¬ target <+: target.dropLast := fun hp => by
          have := hp.length_le
          have := List.length_pos_iff.mpr htarget
          simp only [List.length_dropLast] at *
          omega
        have hstays : ¬ source <+: target.dropLast :=
          fun hp => h.1 (hp.trans (List.dropLast_prefix _))
        refine .inr (moved_of_not_below hstays target ▸ hmoved _ (List.mem_filter.mpr ⟨?_, ?_⟩))
        · exact (get?_eq_some_iff hroot).mp hup
        · simpa [isWithin_iff, Bool.eq_false_iff] using hshort
    · rw [List.dropLast_append_of_ne_nil hnil] at habove ⊢
      exact .inr (moved_append .. ▸ hmoved _ (habove.resolve_left (by simp [hsource])))
  · rw [moved_of_not_below hin]
    refine ⟨hne, habove.imp_right fun hmem => ?_⟩
    have hstays : ¬ source <+: e.1.dropLast := fun hp => hin (hp.trans (List.dropLast_prefix _))
    exact moved_of_not_below hstays target ▸ hmoved _ hmem

/-- Moves what is at a place, with all that lies in it, to another place in a directory. -/
def moveEntries (t : Tree) (source target : Place) : Tree :=
  if h : Apart source target ∧ t.get? target.dropLast = some .directory then
    { entries := (t.erase target).entries.map fun e => (moved source target e.1, e.2)
      distinct := List.pairwise_map.mpr <| (t.erase target).distinct.imp_of_mem fun ha hb hne =>
        moved_ne (not_prefix_of_mem_erase ha) (not_prefix_of_mem_erase hb) hne
      grounded := t.grounded_moved h.1 h.2 }
  else t

/-- A path that ends in a name, not in a step up. -/
def isNamed (p : Path) : Bool :=
  p.name ≠ "" && p.name ≠ ".."

/-- Moves a file or directory. It takes the place of a file or of an empty directory. -/
def move (t : Tree) (source target : Path) : Except FileError Tree :=
  let refused : Obstacle → FileError
    | .missing => .moveNotFound source.toText target.toText
    | .notADirectory => .notADirectory
    | .nameTooLong => .nameTooLong
    | .nullCharacter => .nullCharacter .move
  match t.locate source, t.locate target with
  | .error o, _ => .error (refused o)
  | _, .error o => .error (refused o)
  | .ok from', .ok to' =>
    if !(isNamed source && isNamed target) then .error .busy
    else match t.get? from', t.get? to' with
    | none, _ => .error (refused .missing)
    | some _, none => .ok (t.moveEntries from' to')
    | some (.file _), some (.file _) => .ok (t.moveEntries from' to')
    | some (.file _), some .directory => .error .isADirectory
    | some .directory, some (.file _) => .error .notADirectory
    | some .directory, some .directory =>
      if from' = to' then .ok t
      else if (t.below to').isEmpty then .ok (t.moveEntries from' to')
      else .error .notEmpty

/-- Copies a file. When the target is a directory, the copy goes into it. -/
def copy (t : Tree) (source target : Path) : Except FileError Tree := do
  let target := match t.isDirectory target with
    | .ok true => target.join source.name
    | _ => target
  if hasNull source || hasNull target then throw (.nullCharacter .inspect)
  match t.inspect source with
  | .error o => throw (errorOf .open source o)
  | .ok .directory => throw .isADirectory
  | .ok (.file content) =>
    match t.locate source, t.locate target with
    | .ok from', .ok to' => if from' = to' then throw .sameFile else t.write target content
    | _, _ => t.write target content

/-- The files in a directory with the ways to them, in the order of the ways. -/
def filesBelow (t : Tree) (p : Path) : List (Place × Content) :=
  match t.locate p with
  | .error _ => []
  | .ok place =>
    let files := (t.below place).filterMap fun e => match e.2 with
      | .file content => some (e.1, content)
      | .directory => none
    files.mergeSort fun a b => Place.le a.1 b.1

end Tree

/-- The bytes of a text. -/
def Content.ofText (text : String) : Content :=
  .data (Text.encode text.toList)

end Addon.File
