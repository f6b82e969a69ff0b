import Addon.Lexicon
import Addon.Proofs.Attempt
import Addon.Proofs.File.Path
import Mathlib.Data.List.Induction

/-!
# Lexicons — what a load gives after all that happened before it

A table is read when it is asked for the first time, and remembered until the cache is cleared. What
a load gives depends on the files as they were at the first load of the same table that succeeded,
not on the files as they are. Failures are not remembered, and what callers do to the tables that
they were given makes no difference.

## The architecture

* **`Event`**, **`World.run`** — histories of files, loads and clears, and what they leave.
* **`FirstFound`** — what the first load of a table to succeed since the last clear found,
  told from the history alone.
* **`firstFound_concat`** — the step: how one more event changes it.
* **`get?_cache_run`** — the run: the cache holds exactly what was found first.
* **`place_eq_iff_tablePath_eq`** — loads of one file are loads of one table,
  unless a tag has steps up.
* **`loads_give_first_found`** — the answers to loads.
-/

namespace Addon.Lexicon

open File

/-! ## Histories -/

/-- What can happen to the files and to the lexicons. -/
inductive Event where
  /-- Files are written, deleted or changed in some other way. -/
  | files (change : Tree → Tree)
  /-- All that is remembered is forgotten. -/
  | clear
  | load (directory : Option Path) (tag : String)
  /-- A caller changes one of the tables that were given out. -/
  | alter (number : Nat) (change : Table → Table)

/-- The file that an event asks for. -/
def Event.file? : Event → Option Path
  | .load (some directory) tag =>
    if Tree.hasNull directory then none else some (tablePath directory tag)
  | _ => none

/-- The files, what is remembered of them, and the tables that were given out. -/
structure World where
  tree : Tree
  cache : Cache := {}
  /-- Each is a table of its caller, and not the one that is remembered. -/
  given : List Table := []

namespace World

/-- What a load gives. -/
def answer (w : World) (directory : Option Path) (tag : String) : Attempt Table :=
  (Lexicon.load w.tree directory tag w.cache).1

def step (w : World) : Event → World
  | .files change => { w with tree := change w.tree }
  | .clear => { w with cache := {} }
  | .load directory tag =>
    match Lexicon.load w.tree directory tag w.cache with
    | (.ok table, cache) => { w with cache := cache, given := w.given ++ [table] }
    | (.error _, cache) => { w with cache := cache }
  | .alter number change => { w with given := w.given.modify number change }

/-- The world after some events. Nothing is remembered at first. -/
def run (t : Tree) (events : List Event) : World :=
  events.foldl step ⟨t, {}, []⟩

theorem run_concat (t : Tree) (events : List Event) (e : Event) :
    run t (events ++ [e]) = (run t events).step e := by
  unfold run
  rw [List.foldl_append, List.foldl_cons, List.foldl_nil]

end World

/-- The files after some events. Only changes of files matter to them. -/
def filesAfter (t : Tree) (events : List Event) : Tree :=
  events.foldl (fun t e => match e with
    | .files change => change t
    | _ => t) t

/-- What the first load of a table that succeeded since the last clear found in its file. -/
def FirstFound (t : Tree) (events : List Event) (path : Path) (table : Table) : Prop :=
  ∃ before e after, events = before ++ e :: after ∧ e.file? = some path ∧ .clear ∉ after ∧
    read (filesAfter t before) path = .ok table ∧
    ∀ earlier e' between, before = earlier ++ e' :: between → e'.file? = some path →
      .clear ∉ between →
      ∃ f, read (filesAfter t earlier) path = .error f

/-! ## The step -/

section FirstFound

variable {t : Tree} {events : List Event} {path : Path} {table : Table} {e : Event}

theorem Event.ne_clear_of_file? (h : e.file? = some path) : e ≠ .clear := by
  rintro rfl
  cases h

/-- If some load since the last clear succeeded, one of them was the first. -/
theorem exists_firstFound {before after : List Event} {e : Event} {table : Table}
    (hevents : events = before ++ e :: after) (hfile : e.file? = some path)
    (hclear : .clear ∉ after) (hread : read (filesAfter t before) path = .ok table) :
    ∃ first, FirstFound t events path first := by
  by_cases hearlier : ∀ earlier e' between, before = earlier ++ e' :: between →
    e'.file? = some path →
      .clear ∉ between → ∃ f, read (filesAfter t earlier) path = .error f
  · exact ⟨table, before, e, after, hevents, hfile, hclear, hread, hearlier⟩
  · -- There is an earlier one, so the search goes on before it.
    push Not at hearlier
    obtain ⟨earlier, e', between, hbefore, hfile', hclear', hsuccess⟩ := hearlier
    obtain ⟨table', hread'⟩ : ∃ table', read (filesAfter t earlier) path = .ok table' := by
      cases hr : read (filesAfter t earlier) path with
      | ok table' => exact ⟨table', rfl⟩
      | error f => exact absurd hr (hsuccess f)
    have hsplit : events = earlier ++ e' :: (between ++ e :: after) := by
      rw [hevents, hbefore, List.append_assoc, List.cons_append]
    have hsince : Event.clear ∉ between ++ e :: after := by
      simp only [List.mem_append, List.mem_cons, not_or]
      exact ⟨hclear', (Event.ne_clear_of_file? hfile).symm, hclear⟩
    have hshorter : earlier.length < before.length := by
      rw [hbefore, List.length_append, List.length_cons]
      omega
    exact exists_firstFound hsplit hfile' hsince hread'
termination_by before.length

/-- **The step.** A clear forgets what was found. Any other event keeps it, and a load that succeeds
is the first to do so if there was none before. -/
theorem firstFound_concat : FirstFound t (events ++ [e]) path table ↔ e ≠ .clear ∧
    (FirstFound t events path table ∨
      (e.file? = some path ∧ read (filesAfter t events) path = .ok table ∧
        ∀ other, ¬ FirstFound t events path other)) := by
  constructor
  · rintro ⟨before, e', after, hevents, hfile, hclear, hread, hearlier⟩
    rcases List.eq_nil_or_concat after with rfl | ⟨after, last, rfl⟩
    · obtain ⟨rfl, hlast⟩ := List.append_inj' hevents rfl
      obtain rfl := (List.cons.inj hlast).1
      refine ⟨Event.ne_clear_of_file? hfile, .inr ⟨hfile, hread, fun other hother => ?_⟩⟩
      obtain ⟨earlier, x, between, hsplit, hx, hbetween, hok, -⟩ := hother
      obtain ⟨f, hf⟩ := hearlier earlier x between hsplit hx hbetween
      rw [hok] at hf
      cases hf
    · rw [List.concat_eq_append] at hevents hclear
      rw [← List.cons_append, ← List.append_assoc] at hevents
      obtain ⟨rfl, hlast⟩ := List.append_inj' hevents rfl
      obtain rfl := (List.cons.inj hlast).1
      simp only [List.mem_append, List.mem_singleton, not_or] at hclear
      exact ⟨Ne.symm hclear.2, .inl ⟨before, e', after, rfl, hfile, hclear.1, hread, hearlier⟩⟩
  · rintro ⟨hne, ⟨before, e', after, rfl, hfile, hclear, hread, hearlier⟩ | ⟨hfile, hread, hnone⟩⟩
    · refine ⟨before, e', after ++ [e], by simp, hfile, ?_, hread, hearlier⟩
      simp only [List.mem_append, List.mem_singleton, not_or]
      exact ⟨hclear, Ne.symm hne⟩
    · refine ⟨events, e, [], rfl, hfile, List.not_mem_nil, hread,
        fun earlier x between hsplit hx hbetween => ?_⟩
      cases hr : read (filesAfter t earlier) path with
      | error f => exact ⟨f, rfl⟩
      | ok other =>
        obtain ⟨first, hfirst⟩ := exists_firstFound hsplit hx hbetween hr
        exact absurd hfirst (hnone first)

end FirstFound

/-! ## The run -/

section Run

variable {c : Cache} {t : Tree} {path : Path} {table : Table}

@[simp] theorem get?_empty (path : Path) : ({} : Cache).get? path = none := rfl

theorem get?_remember (c : Cache) (path other : Path) (table : Table) :
    (c.remember path table).get? other =
      (c.get? other).or (if path = other then some table else none) := by
  unfold Cache.remember Cache.get?
  rw [List.find?_append]
  by_cases h : path = other
  · rw [if_pos h]
    cases c.tables.find? fun e => e.1 = other <;> simp [h]
  · rw [if_neg h]
    cases c.tables.find? fun e => e.1 = other <;> simp [h]

/-- A load gives what is remembered, or else what is in the file. -/
theorem fst_load (c : Cache) (t : Tree) (path : Path) :
    (c.load t path).1 = match c.get? path with
      | some table => .ok table
      | none => read t path := by
  unfold Cache.load
  cases c.get? path with
  | some table => rfl
  | none => cases read t path <;> rfl

/-- After a load, a table is remembered if it was before or if the load read it just now. -/
theorem get?_snd_load (c : Cache) (t : Tree) (path other : Path) (table : Table) :
    (c.load t path).2.get? other = some table ↔ c.get? other = some table ∨
      (path = other ∧ c.get? other = none ∧ read t other = .ok table) := by
  unfold Cache.load
  cases hc : c.get? path with
  | some found =>
    dsimp only
    constructor
    · exact .inl
    · rintro (h | ⟨rfl, hnone, -⟩)
      · exact h
      · rw [hc] at hnone
        cases hnone
  | none =>
    cases hread : read t path with
    | error f =>
      dsimp only
      constructor
      · exact .inl
      · rintro (h | ⟨rfl, -, hok⟩)
        · exact h
        · rw [hread] at hok
          cases hok
    | ok found =>
      dsimp only
      rw [get?_remember]
      cases ho : c.get? other with
      | some earlier => simp
      | none =>
        by_cases hp : path = other
        · subst hp
          simp [hread]
        · simp [hp]

/-- What is remembered is what is in the files. -/
def Cache.Faithful (c : Cache) (t : Tree) : Prop :=
  ∀ path table, c.get? path = some table → read t path = .ok table

/-- As long as what is remembered is in the files, it makes no difference. -/
theorem Cache.Faithful.load_eq (h : c.Faithful t) (directory : Option Path) (tag : String) :
    (Lexicon.load t directory tag c).1 = (Lexicon.load t directory tag {}).1 ∧
      (Lexicon.load t directory tag c).2.Faithful t := by
  cases directory with
  | none => exact ⟨rfl, h⟩
  | some directory =>
    unfold Lexicon.load
    dsimp only
    split
    · exact ⟨rfl, h⟩
    · refine ⟨?_, fun path table hget => ?_⟩
      · rw [fst_load, fst_load, get?_empty]
        cases hget : c.get? (tablePath directory tag) with
        | none => rfl
        | some table => exact (h _ _ hget).symm
      · rcases (get?_snd_load c t _ path table).mp hget with hold | ⟨-, -, hread⟩
        · exact h path table hold
        · exact hread

/-- A load is one of the file that it asks for, if it asks for one. -/
theorem load_eq (w : World) (directory : Option Path) (tag : String) :
    Lexicon.load w.tree directory tag w.cache =
      match (Event.load directory tag).file? with
      | some path => w.cache.load w.tree path
      | none => (w.answer directory tag, w.cache) := by
  unfold World.answer Event.file? Lexicon.load
  cases directory with
  | none => rfl
  | some directory => cases h : Tree.hasNull directory <;> simp [h]

@[simp] theorem tree_step_load (w : World) (directory : Option Path) (tag : String) :
    (w.step (.load directory tag)).tree = w.tree := by
  unfold World.step
  dsimp only
  split <;> rfl

theorem cache_step_load (w : World) (directory : Option Path) (tag : String) :
    (w.step (.load directory tag)).cache = (Lexicon.load w.tree directory tag w.cache).2 := by
  unfold World.step
  dsimp only
  split
  · next h => rw [h]
  · next h => rw [h]

theorem tree_run (t : Tree) (events : List Event) :
    (World.run t events).tree = filesAfter t events := by
  induction events using List.reverseRecOn with
  | nil => rfl
  | append_singleton events e ih =>
    rw [World.run_concat]
    unfold filesAfter at ih ⊢
    rw [List.foldl_append, ← ih]
    cases e with
    | load directory tag => exact tree_step_load _ directory tag
    | files change => rfl
    | clear => rfl
    | alter number change => rfl

/-- **The run.** What is remembered of a file is what was found there first since the last clear. -/
theorem get?_cache_run (t : Tree) (events : List Event) (path : Path) (table : Table) :
    (World.run t events).cache.get? path = some table ↔ FirstFound t events path table := by
  induction events using List.reverseRecOn generalizing path table with
  | nil =>
    constructor
    · intro h
      cases h
    · rintro ⟨before, e, after, hevents, -⟩
      simp at hevents
  | append_singleton events e ih =>
    have hnone : ∀ path, (World.run t events).cache.get? path = none ↔
        ∀ other, ¬ FirstFound t events path other := by
      intro path
      simp only [← ih, Option.eq_none_iff_forall_ne_some, ne_eq]
    rw [World.run_concat, firstFound_concat]
    cases e with
    | files change => simp [World.step, Event.file?, ih]
    | alter number change => simp [World.step, Event.file?, ih]
    | clear => simp [World.step]
    | load directory tag =>
      -- only a load remembers, and only what was not remembered
      rw [cache_step_load, load_eq]
      cases hfile : (Event.load directory tag).file? with
      | none => simp [ih]
      | some asked =>
        have hfiles := tree_run t events
        simp only [get?_snd_load, hnone, ih, hfiles, Option.some.injEq]
        constructor
        · rintro (h | ⟨rfl, hfirst, hread⟩)
          · exact ⟨by simp, .inl h⟩
          · exact ⟨by simp, .inr ⟨rfl, hread, hfirst⟩⟩
        · rintro ⟨-, h | ⟨rfl, hread, hfirst⟩⟩
          · exact .inl h
          · exact .inr ⟨rfl, hfirst, hread⟩

end Run

/-! ## Files and tables -/

/-- A tag that names a file in one way: without steps up and without two slashes at its start. -/
def Plain (tag : String) : Prop :=
  (Path.ofText (tag ++ ".json")).start ≠ .doubleRoot ∧ ".." ∉ (Path.ofText (tag ++ ".json")).parts

/-- A place has no steps up in it. -/
theorem not_mem_foldl_step (parts : List String) {here : Place} (h : ".." ∉ here) :
    ".." ∉ parts.foldl Path.step here := by
  induction parts generalizing here with
  | nil => exact h
  | cons part rest ih =>
    refine ih ?_
    unfold Path.step
    split
    · exact fun hmem => h (List.dropLast_subset here hmem)
    · next hpart => simpa [h] using Ne.symm hpart

theorem tablePath_of_plain {tag : String} (h : Plain tag) (directory : Path) :
    (tablePath directory tag).start = .root ∧
      (tablePath directory tag).place = (tablePath directory tag).parts := by
  obtain ⟨hstart, hup⟩ := h
  have hplain : (tablePath directory tag).start = .root ∧
      ".." ∉ (tablePath directory tag).parts := by
    unfold tablePath Path.join Path.append
    split
    · -- The directory has no steps up, since it was resolved.
      have hdirectory : ".." ∉ (directory.resolve (.mk .root [])).parts :=
        not_mem_foldl_step _ List.not_mem_nil
      exact ⟨rfl, by simp [hdirectory, hup]⟩
    · next haway =>
      -- A path from the root stands for itself.
      refine ⟨?_, hup⟩
      cases hroot : (Path.ofText (tag ++ ".json")).start with
      | here => exact absurd hroot haway
      | root => rfl
      | doubleRoot => exact absurd hroot hstart
  refine ⟨hplain.1, ?_⟩
  rw [Path.place, Path.foldl_step_of_not_mem hplain.2, List.nil_append]

/-- **Loads of one file are loads of one table**, if tags name files in one way. -/
theorem place_eq_iff_tablePath_eq {tag tag' : String} (h : Plain tag) (h' : Plain tag')
    (directory directory' : Path) :
    (tablePath directory tag).place = (tablePath directory' tag').place ↔
      tablePath directory tag = tablePath directory' tag' := by
  constructor
  · intro hplace
    obtain ⟨hroot, hparts⟩ := tablePath_of_plain h directory
    obtain ⟨hroot', hparts'⟩ := tablePath_of_plain h' directory'
    exact File.Path.ext (hroot.trans hroot'.symm) (by rw [← hparts, ← hparts', hplace])
  · exact congrArg Path.place

/-! ## Answers -/

theorem read_of_absent {t : Tree} {path : Path} (h : t.isFile path = .ok false) :
    read t path = .ok [] := by
  unfold read
  rw [h]
  rfl

theorem answer_eq (w : World) {directory : Path} (tag : String)
    (h : Tree.hasNull directory = false) :
    w.answer (some directory) tag = match w.cache.get? (tablePath directory tag) with
      | some table => .ok table
      | none => read w.tree (tablePath directory tag) := by
  rw [← fst_load]
  unfold World.answer Lexicon.load
  simp [h]

/-- A load that fails changes nothing. -/
theorem step_of_answer_error {w : World} {directory : Option Path} {tag : String} {f : Failure}
    (h : w.answer directory tag = .error f) : w.step (.load directory tag) = w := by
  have hcache : (Lexicon.load w.tree directory tag w.cache).2 = w.cache := by
    rw [load_eq]
    cases hfile : (Event.load directory tag).file? with
    | none => rfl
    | some path =>
      have hfst : (w.cache.load w.tree path).1 = .error f := by
        have hload := load_eq w directory tag
        rw [hfile] at hload
        rw [← h, World.answer, hload]
      unfold Cache.load at hfst ⊢
      dsimp only
      split
      · rfl
      · next hnone =>
        split
        · next hread =>
          rw [hnone] at hfst
          simp [hread] at hfst
        · rfl
  unfold World.answer at h
  unfold World.step
  dsimp only
  generalize Lexicon.load w.tree directory tag w.cache = result at h hcache
  obtain ⟨outcome, cache⟩ := result
  dsimp only at h hcache ⊢
  rw [h, hcache]

/-- **Loads give what was found first.** After any events, a load that succeeds gives what the first
load of the same table to succeed since the last clear found in its file, which may be this load
itself. As long as none has succeeded, the file is read as it is now, and a load that fails changes
nothing. A file that is not there counts as an empty table. A load without a directory gives an
empty table and reads and changes nothing. Tables are told apart by their paths; two paths lead to
the same file only if a tag has steps up or two slashes at its start. -/
theorem loads_give_first_found (t : Tree) (events : List Event) :
    (World.run t events).tree = filesAfter t events ∧
    (∀ directory tag, Tree.hasNull directory = false →
      (∀ table, (World.run t events).answer (some directory) tag = .ok table ↔
        FirstFound t (events ++ [.load (some directory) tag]) (tablePath directory tag) table) ∧
      ((∀ table, ¬ FirstFound t events (tablePath directory tag) table) →
        (World.run t events).answer (some directory) tag =
          read (filesAfter t events) (tablePath directory tag))) ∧
    (∀ directory tag, Tree.hasNull directory = true →
      ∃ f, (World.run t events).answer (some directory) tag = .error f) ∧
    (∀ directory tag f, (World.run t events).answer directory tag = .error f →
      World.run t (events ++ [.load directory tag]) = World.run t events) ∧
    (∀ path, (filesAfter t events).isFile path = .ok false →
      read (filesAfter t events) path = .ok []) ∧
    (∀ tag, (World.run t events).answer none tag = .ok [] ∧
      (World.run t (events ++ [.load none tag])).tree = (World.run t events).tree ∧
      (World.run t (events ++ [.load none tag])).cache = (World.run t events).cache) ∧
    ∀ directory tag directory' tag', Plain tag → Plain tag' →
      ((tablePath directory tag).place = (tablePath directory' tag').place ↔
        tablePath directory tag = tablePath directory' tag') := by
  have htree := tree_run t events
  have hcache := get?_cache_run t events
  refine ⟨htree, fun directory tag hnull => ?_, fun directory tag hnull => ?_,
    fun directory tag f hf => ?_, fun path => read_of_absent, fun tag => ⟨rfl, ?_, ?_⟩,
    fun directory tag directory' tag' h h' => place_eq_iff_tablePath_eq h h' _ _⟩
  · have hanswer := answer_eq (World.run t events) tag hnull
    have hfile : (Event.load (some directory) tag).file? = some (tablePath directory tag) := by
      simp [Event.file?, hnull]
    rw [htree] at hanswer
    refine ⟨fun table => ?_, fun hnone => ?_⟩
    · rw [firstFound_concat, ← hcache]
      -- a table that is remembered was found first; any other is read now
      cases hget : (World.run t events).cache.get? (tablePath directory tag) with
      | some found =>
        have hfirst := (hcache _ _).mp hget
        simp only [hanswer, hget, hfile]
        constructor
        · rintro ⟨⟩
          exact ⟨by simp, .inl rfl⟩
        · rintro ⟨-, h | ⟨-, -, hnone⟩⟩
          · rw [Option.some.inj h]
          · exact absurd hfirst (hnone found)
      | none =>
        have hnone : ∀ other, ¬ FirstFound t events (tablePath directory tag) other :=
          fun other hother => by
          rw [(hcache _ _).mpr hother] at hget
          cases hget
        simp only [hanswer, hget, hfile]
        exact ⟨fun hread => ⟨by simp, .inr ⟨trivial, hread, hnone⟩⟩,
          fun h => (h.2.resolve_left (by simp)).2.1⟩
    · have hget : (World.run t events).cache.get? (tablePath directory tag) = none := by
        rw [Option.eq_none_iff_forall_ne_some]
        exact fun table hsome => hnone table ((hcache _ _).mp hsome)
      rw [hanswer, hget]
  · exact ⟨.file (.nullCharacter .resolve), by simp [World.answer, Lexicon.load, hnull]⟩
  · rw [World.run_concat, step_of_answer_error hf]
  · rw [World.run_concat, tree_step_load]
  · rw [World.run_concat, cache_step_load]
    rfl

/-! ### A table that is mended, and then deleted -/

/-- A directory with nothing in it. -/
def bareTree : Tree :=
  .mk [(["lang"], .directory)]

/-- The path of that directory. -/
def tableDir : Path :=
  .mk .root ["lang"]

/-- A text is written to the table of a language. -/
def writeTable (text : String) : Event :=
  .files fun t => t.set ["lang", "fr.json"] (.file (.ofText text))

def loadTable : Event :=
  .load (some tableDir) "fr"

/-- A broken table is loaded, mended and loaded again. Then a caller changes what it was given,
and the file is deleted. -/
def mendedEvents : List Event :=
  [writeTable "\x7b", loadTable, writeTable "\x7b\"A\": \"B\"\x7d", loadTable,
    .alter 0 fun table => table ++ [("C", "D")], .files fun t => t.erase ["lang", "fr.json"]]

set_option maxRecDepth 100000 in
/-- The failure is not remembered, and what was found after it stays when the file is gone. -/
theorem loads_give_first_found_mended :
    ((World.run bareTree (mendedEvents.take 1)).answer (some tableDir) "fr").toOption = none ∧
    (filesAfter bareTree mendedEvents).isFile (tablePath tableDir "fr") = .ok false ∧
    (World.run bareTree mendedEvents).answer (some tableDir) "fr" = .ok [("A", "B")] ∧
    FirstFound bareTree (mendedEvents ++ [loadTable]) (tablePath tableDir "fr") [("A", "B")] := by
  have hgives : Gives ((World.run bareTree mendedEvents).answer (some tableDir) "fr")
      (· = [("A", "B")]) := by
    decide +kernel
  obtain ⟨table, hanswer, rfl⟩ := hgives
  obtain ⟨-, hloads, -⟩ := loads_give_first_found bareTree mendedEvents
  exact ⟨by decide +kernel, by decide +kernel, hanswer,
    ((hloads tableDir "fr" (by decide +kernel)).1 _).mp hanswer⟩

end Addon.Lexicon
