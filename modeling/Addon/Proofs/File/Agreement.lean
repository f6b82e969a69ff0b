import Addon.File.Text
import Addon.Proofs.File.Tree

/-!
# Agreement — trees that differ in some places only

Two trees may agree everywhere outside some zones. Whatever is done along paths that avoid
the zones has the same outcome in both: the same answer, the same error, or trees that again
agree outside the zones.

## The architecture

* **`AgreeOutside`** — agreement of two trees, place by place.
* **`Path.Avoids`** — a path that does not come into a zone on its way.
* **`walk_congr`** — walks see the places they go through only; from it, one
  statement for each look.
* **`Alike`** — equal outcomes of an operation, with a relation between the trees that it gives.
* **`alike_ensureDirectories`** — making directories, also for a zone itself if
  no file is in its place.
-/

namespace Addon.File

/-- A path that nowhere on its way comes into one of some zones. -/
def Path.Avoids (p : Path) (zones : List Place) : Prop :=
  ∀ q, p.Passes q → ∀ z ∈ zones, ¬ z <+: q

instance (p : Path) (zones : List Place) : Decidable (p.Avoids zones) :=
  decidable_of_iff (∀ before ∈ p.parts.inits, ∀ z ∈ zones, ¬ z <+: before.foldl Path.step []) <| by
    simp [Path.Avoids, Path.Passes]

theorem Path.Avoids.of_prefix {p p' : Path} {zones : List Place} (h : p.Avoids zones)
    (hp : p'.parts <+: p.parts) : p'.Avoids zones := fun q hq =>
  h q (hq.mono hp)

theorem Path.Avoids.subset {p : Path} {zones zones' : List Place} (h : p.Avoids zones)
    (hz : zones' ⊆ zones) : p.Avoids zones' := fun q hq z hmem =>
  h q hq z (hz hmem)

theorem Path.Avoids.parent {p : Path} {zones : List Place} (h : p.Avoids zones) :
    p.parent.Avoids zones :=
  h.of_prefix p.parent_prefix

namespace Tree

variable {t u : Tree} {zones : List Place} {p : Path}

/-- The trees are the same outside some zones. -/
def AgreeOutside (zones : List Place) (t u : Tree) : Prop :=
  ∀ q, (∀ z ∈ zones, ¬ z <+: q) → t.get? q = u.get? q

instance (zones : List Place) (t u : Tree) : Decidable (AgreeOutside zones t u) :=
  decidable_of_iff (∀ e ∈ t.entries ++ u.entries, (∀ z ∈ zones, ¬ z <+: e.1) →
    t.get? e.1 = u.get? e.1) <| by
    refine ⟨fun h q hq => ?_, fun h e _ he => h e.1 he⟩
    by_cases hmem : ∃ e ∈ t.entries ++ u.entries, e.1 = q
    · obtain ⟨e, he, rfl⟩ := hmem
      exact h e he hq
    · -- A place without an entry is empty in both trees, or it is the root.
      simp only [List.mem_append, not_exists, not_and] at hmem
      by_cases hnil : q = []
      · rw [hnil, get?_nil, get?_nil]
      · rw [get?_eq_none_of_entries hnil fun e he => hmem e (.inl he),
          get?_eq_none_of_entries hnil fun e he => hmem e (.inr he)]

theorem AgreeOutside.mono {zones' : List Place} (h : AgreeOutside zones t u) (hz : zones ⊆ zones') :
    AgreeOutside zones' t u := fun q hq =>
  h q fun z hmem => hq z (hz hmem)

theorem AgreeOutside.set (h : AgreeOutside zones t u) {q : Place} {e : Entry} (ht : t.HasRoom q e)
    (hu : u.HasRoom q e) : AgreeOutside zones (t.set q e) (u.set q e) := by
  intro r hr
  rw [get?_set ht, get?_set hu, h r hr]

/-! ## Looks -/

/-- The trees are the same at every place that a path steps from. -/
def SameWay (p : Path) (t u : Tree) : Prop :=
  ∀ before part, before ++ [part] <+: p.parts →
    t.get? (before.foldl Path.step []) = u.get? (before.foldl Path.step [])

theorem walk_congr {here : Place} {parts : List String}
    (h : ∀ before part, before ++ [part] <+: parts →
      t.get? (before.foldl Path.step here) = u.get? (before.foldl Path.step here)) :
    t.walk here parts = u.walk here parts := by
  induction parts generalizing here with
  | nil => rfl
  | cons part rest ih =>
    have hhere : t.get? here = u.get? here := h [] part (by simp)
    have hrest : t.walk (Path.step here part) rest = u.walk (Path.step here part) rest :=
      ih fun before other hb => by simpa using h (part :: before) other (by simpa using hb)
    unfold walk
    rw [hhere, hrest]

theorem SameWay.locate (h : SameWay p t u) : t.locate p = u.locate p := by
  unfold Tree.locate
  rw [walk_congr h]

theorem AgreeOutside.sameWay (h : AgreeOutside zones t u) (hp : p.parent.Avoids zones) :
    SameWay p t u := fun before _ hb =>
  h _ (hp _ ⟨before, Path.prefix_parent hb, rfl⟩)

theorem AgreeOutside.locate (h : AgreeOutside zones t u) (hp : p.parent.Avoids zones) :
    t.locate p = u.locate p :=
  (h.sameWay hp).locate

theorem AgreeOutside.firm (h : AgreeOutside zones t u) (hp : p.parent.Avoids zones)
    (hfirm : t.Firm p) :
    u.Firm p := fun before hb =>
  (h.sameWay hp before _ hb).symm.trans (hfirm before hb)

theorem AgreeOutside.get? (h : AgreeOutside zones t u) (hp : p.Avoids zones) :
    t.get? p.place = u.get? p.place :=
  h _ (hp _ p.passes_place)

theorem AgreeOutside.inspect (h : AgreeOutside zones t u) (hp : p.Avoids zones) :
    t.inspect p = u.inspect p := by
  rw [inspect_eq, inspect_eq, ← h.locate hp.parent]
  cases hplace : t.locate p with
  | error o => rfl
  | ok place =>
    obtain rfl := (locate_eq_ok_iff.mp hplace).2.2
    simp only [h.get? hp]

theorem AgreeOutside.ask (h : AgreeOutside zones t u) (hp : p.Avoids zones)
    (question : Entry → Bool) : t.ask p question = u.ask p question := by
  unfold Tree.ask
  rw [h.inspect hp]

theorem AgreeOutside.readText (h : AgreeOutside zones t u) (hp : p.Avoids zones) :
    t.readText p = u.readText p := by
  unfold Tree.readText Tree.read
  rw [h.inspect hp]

/-! ## Operations -/

/-- Equal outcomes of an operation: the same error, or trees that are related. -/
inductive Alike (R : Tree → Tree → Prop) : Except FileError Tree → Except FileError Tree → Prop
  | ok {t u : Tree} (h : R t u) : Alike R (.ok t) (.ok u)
  | error (e : FileError) : Alike R (.error e) (.error e)

theorem alike_write (h : AgreeOutside zones t u) (hp : p.Avoids zones) (c : Content) :
    Alike (AgreeOutside zones) (t.write p c) (u.write p c) := by
  unfold write
  have hsame := h.locate hp.parent
  rw [← hsame]
  cases hplace : t.locate p with
  | error o => exact .error _
  | ok place =>
    obtain rfl := (locate_eq_ok_iff.mp hplace).2.2
    dsimp only
    rw [← h.get? hp]
    split
    · exact .error _
    · next hfree =>
      exact .ok (h.set (hasRoom_of_locate hplace hfree _)
        (hasRoom_of_locate (hsame ▸ hplace) (h.get? hp ▸ hfree) _))

/-- Different files may be written into a zone. -/
theorem alike_write_within (h : AgreeOutside zones t u) (hway : SameWay p t u) {z : Place}
    (hz : z ∈ zones) (hp : z <+: p.place)
    (hfree : t.get? p.place ≠ some .directory ∧ u.get? p.place ≠ some .directory)
    (c c' : Content) : Alike (AgreeOutside zones) (t.write p c) (u.write p c') := by
  unfold write
  rw [← hway.locate]
  cases hplace : t.locate p with
  | error o => exact .error _
  | ok place =>
    obtain rfl := (locate_eq_ok_iff.mp hplace).2.2
    dsimp only
    rw [if_neg hfree.1, if_neg hfree.2]
    refine .ok fun q hq => ?_
    have hne : q ≠ p.place := by
      rintro rfl
      exact hq z hz hp
    rw [get?_set (hasRoom_of_locate hplace hfree.1 _),
      get?_set (hasRoom_of_locate (hway.locate ▸ hplace) hfree.2 _), if_neg hne, if_neg hne, h q hq]

theorem alike_copy (h : AgreeOutside zones t u) {source target : Path}
    (hsource : source.Avoids zones) (htarget : target.Avoids zones)
    (hinto : t.isDirectory target = .ok true → (target.join source.name).Avoids zones) :
    Alike (AgreeOutside zones) (t.copy source target) (u.copy source target) := by
  have hlanding : t.landing source target = u.landing source target := by
    unfold landing isDirectory
    rw [h.ask htarget]
  have havoids : (t.landing source target).Avoids zones := by
    unfold landing
    split
    · next hdir => exact hinto hdir
    · exact htarget
  rw [copy_eq, copy_eq, ← hlanding]
  unfold copyTo
  rw [← h.inspect hsource, ← h.locate hsource.parent, ← h.locate havoids.parent]
  split
  · exact .error _
  · split
    · exact .error _
    · exact .error _
    · split
      · exact .error _
      · exact alike_write h havoids _

/-! ### Making directories -/

/-- Neither tree has a file at a place. -/
def NoFiles (q : Place) (t u : Tree) : Prop :=
  ∀ c, t.get? q ≠ some (.file c) ∧ u.get? q ≠ some (.file c)

theorem NoFiles.grow {q : Place} {way way' : Path} {v w : Tree} (h : NoFiles q t u)
    (ht : Grows way t v) (hu : Grows way' u w) : NoFiles q v w := fun c =>
  ⟨mt ht.file_iff.mp (h c).1, mt hu.file_iff.mp (h c).2⟩

theorem Alike.bind {R S : Tree → Tree → Prop} {x y : Except FileError Tree}
    {f g : Tree → Except FileError Tree} (h : Alike R x y)
    (hf : ∀ t u, x = .ok t → y = .ok u → R t u → Alike S (f t) (g u)) :
    Alike S (x.bind f) (y.bind g) := by
  cases h with
  | ok h => exact hf _ _ rfl rfl h
  | error e => exact .error e

/-- Where no file is, there is a directory afterwards, and all else is as before. -/
theorem exists_ensureDirectory {place : Place} (hplace : t.locate p = .ok place)
    (hfile : ∀ c, t.get? p.place ≠ some (.file c)) :
    ∃ v, t.ensureDirectory p = .ok v ∧
      ∀ r, v.get? r = if r = p.place then some .directory else t.get? r := by
  rw [ensureDirectory_eq, hplace]
  dsimp only
  rcases he : t.get? p.place with _ | (_ | c)
  · exact ⟨_, rfl, get?_set (hasRoom_of_locate hplace (by simp [he]) _)⟩
  · refine ⟨t, rfl, fun r => ?_⟩
    split_ifs with hr
    · rw [hr, he]
    · rfl
  · exact absurd he (hfile c)

theorem alike_ensureDirectory (h : AgreeOutside zones t u) (hp : p.parent.Avoids zones)
    (hend : p.Avoids zones ∨ NoFiles p.place t u) :
    Alike (AgreeOutside zones) (t.ensureDirectory p) (u.ensureDirectory p) := by
  cases hplace : t.locate p with
  | error o =>
    rw [ensureDirectory_eq, ensureDirectory_eq, ← h.locate hp, hplace]
    exact .error _
  | ok place =>
    rcases hend with havoids | hfiles
    · rw [ensureDirectory_eq, ensureDirectory_eq, ← h.locate hp, hplace, ← h.get? havoids]
      dsimp only
      rcases he : t.get? p.place with _ | (_ | c)
      · exact .ok (h.set (hasRoom_of_locate hplace (by simp [he]) _)
          (hasRoom_of_locate (h.locate hp ▸ hplace) (by simp [← h.get? havoids, he]) _))
      · exact .ok h
      · exact .error _
    · obtain ⟨v, hv, hget⟩ := exists_ensureDirectory hplace fun c => (hfiles c).1
      obtain ⟨w, hw, hget'⟩ := exists_ensureDirectory (h.locate hp ▸ hplace) fun c => (hfiles c).2
      rw [hv, hw]
      refine .ok fun r hr => ?_
      rw [hget, hget', h r hr]

theorem alike_ensureUpTo {n : Nat} (h : AgreeOutside zones t u) (hp : p.parent.Avoids zones)
    (hend : p.Avoids zones ∨ NoFiles p.place t u) :
    Alike (AgreeOutside zones) (t.ensureUpTo n p) (u.ensureUpTo n p) := by
  induction n generalizing t u p with
  | zero => exact alike_ensureDirectory h hp hend
  | succ n ih =>
    rw [ensureUpTo_succ, ensureUpTo_succ, ← h.locate hp]
    split
    · refine (ih h hp.parent (.inl hp)).bind fun v w hv hw hvw => ?_
      exact alike_ensureDirectory hvw hp
        (hend.imp_right fun hfiles => hfiles.grow (grows_ensureUpTo hv) (grows_ensureUpTo hw))
    · exact alike_ensureDirectory h hp hend

/-- **Making directories** ends alike in both trees. -/
theorem alike_ensureDirectories (h : AgreeOutside zones t u) (hp : p.parent.Avoids zones)
    (hend : p.Avoids zones ∨ NoFiles p.place t u) :
    Alike (AgreeOutside zones) (t.ensureDirectories p) (u.ensureDirectories p) :=
  alike_ensureUpTo h hp hend

end Tree

end Addon.File
