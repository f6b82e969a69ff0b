import Addon.Script.Token
import Addon.Source.Index
import Addon.Proofs.Text.Lines
import Mathlib.Data.List.Induction

/-!
# Index — places in a source and their offsets

The parser names places by a line and a byte column of the text with unified line ends; text is cut
at character offsets of the source as given.

## The architecture

* **`Marks source p n`** — the place `p` is reached by reading the first `n` characters, and no pair
  of carriage return and line feed is cut there.
* **`Marks.offset?`** — the index finds the offset of every marked place.
* **`Marks.le_iff`** — places are ordered as their offsets are.
* **`Boundary source n`** — a line starts or the source ends at `n`. The bounds of the line around
  an offset stay between the boundaries around it (`le_lineBounds`, `lineBounds_le`).
-/

namespace Addon.Script.Position

/-! ## The order of places -/

instance : LE Position :=
  ⟨fun p q => p.line < q.line ∨ p.line = q.line ∧ p.column ≤ q.column⟩

theorem le_def (p q : Position) :
    p ≤ q ↔ p.line < q.line ∨ p.line = q.line ∧ p.column ≤ q.column := Iff.rfl

theorem le_refl (p : Position) : p ≤ p := by
  rw [le_def]
  omega

theorem le_trans {p q r : Position} (hpq : p ≤ q) (hqr : q ≤ r) : p ≤ r := by
  rw [le_def] at *
  omega

instance : Trans (LE.le : Position → Position → Prop) LE.le LE.le :=
  ⟨le_trans⟩

/-- Where the line of a place starts. -/
def lineStart (p : Position) : Position :=
  ⟨p.line, 0⟩

theorem lineStart_le (p : Position) : p.lineStart ≤ p :=
  Or.inr ⟨rfl, Nat.zero_le _⟩

/-! ## Moving on -/

@[simp] theorem after_nil (p : Position) : p.after [] = p := rfl

@[simp] theorem after_cons (p : Position) (c : Char) (cs : List Char) :
    p.after (c :: cs) = (p.advance c).after cs := rfl

theorem after_append (p : Position) (a b : List Char) : p.after (a ++ b) = (p.after a).after b :=
  List.foldl_append

theorem advance_newline (p : Position) : p.advance '\n' = ⟨p.line + 1, 0⟩ := by
  rw [advance, if_pos rfl]

theorem advance_of_ne {c : Char} (p : Position) (h : c ≠ '\n') :
    p.advance c = ⟨p.line, p.column + c.utf8Size⟩ := by
  rw [advance, if_neg h]

theorem le_advance (p : Position) (c : Char) : p ≤ p.advance c := by
  rw [advance, le_def]
  split <;> simp

theorem not_advance_le (p : Position) (c : Char) : ¬ p.advance c ≤ p := by
  have := c.utf8Size_pos
  rw [advance, le_def]
  split
  · simp
  · simp
    omega

theorem le_after (p : Position) (cs : List Char) : p ≤ p.after cs := by
  induction cs generalizing p with
  | nil => exact le_refl p
  | cons c cs ih => exact le_trans (le_advance p c) (ih _)

/-- Reading something leads to a later place. -/
theorem not_after_le (p : Position) {cs : List Char} (h : cs ≠ []) : ¬ p.after cs ≤ p := by
  cases cs with
  | nil => contradiction
  | cons c cs =>
    intro hle
    exact not_advance_le p c (le_trans (le_after _ cs) hle)

/-- Lines further down are read alike. -/
theorem after_succ_line (line column : Nat) (cs : List Char) :
    after ⟨line + 1, column⟩ cs =
      ⟨(after ⟨line, column⟩ cs).line + 1, (after ⟨line, column⟩ cs).column⟩ := by
  induction cs generalizing line column with
  | nil => rfl
  | cons c cs ih =>
    rw [after_cons, after_cons]
    by_cases hc : c = '\n'
    · subst hc
      rw [advance_newline, advance_newline, ih]
    · rw [advance_of_ne _ hc, advance_of_ne _ hc, ih]

theorem line_le_after (p : Position) (cs : List Char) : p.line ≤ (p.after cs).line := by
  have := le_after p cs
  rw [le_def] at this
  omega

end Addon.Script.Position

namespace Addon.Source

open Script Text

variable {source a : List Char} {p : Position} {n : Nat}

/-! ## Columns -/

@[simp] theorem byteLength_nil : byteLength [] = 0 := rfl

theorem byteLength_cons (c : Char) (cs : List Char) :
    byteLength (c :: cs) = c.utf8Size + byteLength cs := rfl

theorem byteLength_append (a b : List Char) :
    byteLength (a ++ b) = byteLength a + byteLength b := by
  induction a with
  | nil => simp
  | cons c a ih => rw [List.cons_append, byteLength_cons, byteLength_cons, ih, Nat.add_assoc]

theorem charsWithin_zero (cs : List Char) : charsWithin 0 cs = 0 := by
  cases cs with
  | nil => rfl
  | cons c cs =>
    have := c.utf8Size_pos
    rw [charsWithin, if_neg (by omega)]

/-- The bytes of the front of a line hold exactly the characters of the front. -/
theorem charsWithin_append (pre rest : List Char) :
    charsWithin (byteLength pre) (pre ++ rest) = pre.length := by
  induction pre with
  | nil => exact charsWithin_zero rest
  | cons c pre ih =>
    rw [List.cons_append, byteLength_cons, charsWithin, if_pos (by omega),
      Nat.add_sub_cancel_left, ih, List.length_cons]

/-! ## Offsets of lines and columns -/

/-- The offset of a column of a line, given the lines of a source and its length. -/
def placedOffset (length : Nat) (lines : List (Nat × List Char)) (line column : Nat) : Nat :=
  match lines[line - 1]? with
  | some placed => placed.1 + charsWithin column placed.2
  | none => length

/-- Lines count from one on, so that none is counted from the end. -/
theorem Index.offset?_eq (index : Index) {line : Nat} (column : Nat) (h : 1 ≤ line) :
    index.offset? line column =
      some (placedOffset index.source.length index.lines line column) := by
  unfold offset? placedOffset
  by_cases hlines : index.lines.length ≤ line - 1
  · rw [if_pos (by omega), List.getElem?_eq_none hlines]
  · have hitem : itemAt? index.lines ((line : Int) - 1) = index.lines[line - 1]? := by
      rw [itemAt?, if_neg (by omega), placeOf, if_neg (by omega)]
      congr 1
      omega
    rw [if_neg (by omega), hitem, List.getElem?_eq_getElem (by omega)]
    simp only [columnOffset, placeOf, Option.some.injEq]
    rw [if_neg (by omega), Int.toNat_natCast]

theorem placedLines_cons (start : Nat) (line : List Char) (rest : List (List Char)) :
    placedLines start (line :: rest) = (start, line) :: placedLines (start + line.length) rest :=
      rfl

/-- What comes before the first line end goes to the first line. -/
theorem lines_append_lineEnd {pre e rest : List Char} (hpre : ∀ c ∈ pre, ¬ IsLineEnd c)
    (he : lines (e ++ rest) = e :: lines rest) :
    lines (pre ++ (e ++ rest)) = (pre ++ e) :: lines rest := by
  cases pre with
  | nil => exact he
  | cons c pre =>
    rw [lines_append hpre (by simp), he]
    rfl

/-- The step over a line end `e`: one more line in front, one line further down. -/
theorem placedOffset_shift (pre e rest b : List Char) (start : Nat)
    (hrest : placedOffset (start + (pre ++ e).length + ([] ++ (rest ++ b)).length)
      (placedLines (start + (pre ++ e).length) (lines ([] ++ (rest ++ b))))
      (Position.after ⟨1, byteLength []⟩ (unifyLineEnds rest)).line
      (Position.after ⟨1, byteLength []⟩ (unifyLineEnds rest)).column =
      start + (pre ++ e).length + (([] : List Char).length + rest.length)) :
    placedOffset (start + (pre ++ (e ++ rest ++ b)).length)
      ((start, pre ++ e) :: placedLines (start + (pre ++ e).length) (lines (rest ++ b)))
      (Position.after ⟨1 + 1, 0⟩ (unifyLineEnds rest)).line
      (Position.after ⟨1 + 1, 0⟩ (unifyLineEnds rest)).column =
      start + (pre.length + (e ++ rest).length) := by
  have hline := Position.line_le_after ⟨1, 0⟩ (unifyLineEnds rest)
  rw [Position.after_succ_line]
  obtain ⟨k, hk⟩ : ∃ k, (Position.after ⟨1, 0⟩ (unifyLineEnds rest)).line = k + 1 :=
    ⟨_, (Nat.sub_add_cancel hline).symm⟩
  simp only [byteLength_nil, List.nil_append, List.length_append, placedOffset, hk,
    Nat.add_sub_cancel, List.getElem?_cons_succ, List.length_nil] at hrest ⊢
  rw [show start + (pre.length + (e.length + rest.length + b.length)) =
    start + (pre.length + e.length) + (rest.length + b.length) from by omega, hrest]
  omega

/-- **Reading finds the offset.** Behind a part `pre` of the current line, reading `a` leads to the
place whose offset is the length of both. Induction along the line ends of `a`: other characters
move over to `pre`, a line end starts a line anew. -/
theorem placedOffset_after (pre a b : List Char) (start : Nat) (hpre : ∀ c ∈ pre, ¬ IsLineEnd c)
    (hcut : Uncut a b) :
    placedOffset (start + (pre ++ (a ++ b)).length) (placedLines start (lines (pre ++ (a ++ b))))
      (Position.after ⟨1, byteLength pre⟩ (unifyLineEnds a)).line
      (Position.after ⟨1, byteLength pre⟩ (unifyLineEnds a)).column =
      start + (pre.length + a.length) := by
  induction a using unifyLineEnds.induct generalizing pre start with
  | case1 =>
    rw [unifyLineEnds_nil, Position.after_nil, List.nil_append]
    cases pre with
    | nil =>
      cases hb : lines b with
      | nil =>
        -- no line at all: the source is empty
        have hnil : b = [] := by simpa [hb] using (flatten_lines b).symm
        simp [hnil, placedOffset, placedLines]
      | cons line others =>
        rw [List.nil_append, hb]
        simp [placedOffset, placedLines, charsWithin_zero]
    | cons c pre =>
      rw [lines_append hpre (by simp), placedOffset, placedLines_cons, Nat.sub_self,
        List.getElem?_cons_zero]
      simp only [charsWithin_append, List.length_nil, Nat.add_zero]
  | case2 rest ih =>
    have hlines : lines (pre ++ ('\r' :: '\n' :: rest ++ b)) =
        (pre ++ ['\r', '\n']) :: lines (rest ++ b) :=
      lines_append_lineEnd (e := ['\r', '\n']) hpre (lines_pair _)
    have hrest := ih [] (start + (pre ++ ['\r', '\n']).length) (by simp) hcut.of_cons.of_cons
    rw [unifyLineEnds_pair, Position.after_cons, Position.advance_newline, hlines, placedLines_cons]
    exact placedOffset_shift pre ['\r', '\n'] rest b start hrest
  | case3 c rest hpair ih =>
    have hc : Uncut [c] rest := .singleton hpair
    rw [unifyLineEnds_cons hc, Position.after_cons]
    by_cases hend : IsLineEnd c
    · have hboth : Uncut [c] (rest ++ b) := hc.append_right hcut
      have hlines : lines (pre ++ (c :: rest ++ b)) = (pre ++ [c]) :: lines (rest ++ b) :=
        lines_append_lineEnd (e := [c]) hpre (lines_lineEnd hend hboth)
      have hrest := ih [] (start + (pre ++ [c]).length) (by simp) hcut.of_cons
      have hnewline : (if c = '\r' then '\n' else c) = '\n' := by
        rcases hend with rfl | rfl <;> rfl
      rw [hnewline, Position.advance_newline, hlines, placedLines_cons]
      exact placedOffset_shift pre [c] rest b start hrest
    · have hne : c ≠ '\r' ∧ c ≠ '\n' := ⟨fun h => hend (Or.inr h), fun h => hend (Or.inl h)⟩
      have hrest := ih (pre ++ [c]) start (by simpa [or_imp, forall_and] using ⟨hpre, hend⟩)
        hcut.of_cons
      rw [if_neg hne.1, Position.advance_of_ne _ hne.2]
      have hlength : (pre ++ [c]).length + rest.length = pre.length + (c :: rest).length := by
        simp only [List.length_append, List.length_cons, List.length_nil]
        omega
      rwa [byteLength_append, byteLength_cons, byteLength_nil, Nat.add_zero, List.append_assoc,
        hlength] at hrest
/-- The place `p` is reached by reading the first `n` characters of a source. -/
def Marks (source : List Char) (p : Position) (n : Nat) : Prop :=
  ∃ a b, source = a ++ b ∧ Uncut a b ∧ p = Position.after ⟨1, 0⟩ (unifyLineEnds a) ∧ n = a.length

/-- The index finds the offset of a marked place. -/
theorem Marks.offset? (h : Marks source p n) :
    (Index.ofSource source).offset? p.line p.column = some n := by
  obtain ⟨a, b, rfl, hcut, rfl, rfl⟩ := h
  rw [Index.offset?_eq _ _ (Position.line_le_after ⟨1, 0⟩ (unifyLineEnds a))]
  have := placedOffset_after [] a b 0 (by simp) hcut
  simpa [Index.ofSource] using this

/-- A place has one offset. -/
theorem Marks.unique {m : Nat} (hn : Marks source p n) (hm : Marks source p m) : n = m :=
  Option.some.inj (hn.offset?.symm.trans hm.offset?)

theorem Marks.le_length (h : Marks source p n) :
    n ≤ source.length := by
  obtain ⟨a, b, rfl, -, -, rfl⟩ := h
  simp

/-- Part of what follows a cut decides as much as all of it whether a pair is cut. -/
theorem uncut_of_append {t b : List Char} (h : Uncut a (t ++ b)) : Uncut a t := by
  cases t with
  | nil => simp
  | cons c t => simpa [Uncut] using h

theorem unifyLineEnds_ne_nil (h : a ≠ []) : unifyLineEnds a ≠ [] := by
  fun_cases unifyLineEnds a <;> simp_all

/-- Reading on from a marked place never leads back. -/
theorem Marks.le_of_le {q : Position} {m : Nat} (hp : Marks source p n)
    (hq : Marks source q m) (h : n ≤ m) : p ≤ q ∧ (q ≤ p → n = m) := by
  obtain ⟨a, b, rfl, hcut, rfl, rfl⟩ := hp
  obtain ⟨a', b', heq, -, rfl, rfl⟩ := hq
  obtain ⟨t, rfl, rfl⟩ : ∃ t, a' = a ++ t ∧ b = t ++ b' := by
    rcases List.append_eq_append_iff.mp heq with ht | ⟨t, rfl, rfl⟩
    · exact ht
    · have : t = [] := List.length_eq_zero_iff.mp (by rw [List.length_append] at h; omega)
      exact ⟨[], by simp [this], by simp [this]⟩
  rw [unifyLineEnds_append (uncut_of_append hcut), Position.after_append]
  refine ⟨Position.le_after _ _, fun hle => ?_⟩
  cases t with
  | nil => simp
  | cons c t => exact absurd hle (Position.not_after_le _ (unifyLineEnds_ne_nil (by simp)))

/-- Places are ordered as their offsets are. -/
theorem Marks.le_iff {q : Position} {m : Nat} (hp : Marks source p n) (hq : Marks source q m) :
    p ≤ q ↔ n ≤ m := by
  constructor
  · intro hle
    rcases Nat.le_total n m with h | h
    · exact h
    · exact Nat.le_of_eq ((hq.le_of_le hp h).2 hle).symm
  · exact fun h => (hp.le_of_le hq h).1

/-! ## Starts of lines -/

/-- Behind a line end a line starts. -/
theorem column_after_lineEnd (p : Position) {c : Char} (hc : IsLineEnd c) :
    (p.after (unifyLineEnds (a ++ [c]))).column = 0 := by
  have hlast : ∃ u, unifyLineEnds (a ++ [c]) = u ++ ['\n'] := by
    induction a using unifyLineEnds.induct with
    | case1 => exact ⟨[], by rcases hc with rfl | rfl <;> rfl⟩
    | case2 rest ih =>
      obtain ⟨u, hu⟩ := ih
      exact ⟨'\n' :: u, by simp [hu]⟩
    | case3 d rest hpair ih =>
      obtain ⟨u, hu⟩ := ih
      by_cases hcut : Uncut [d] (rest ++ [c])
      · exact ⟨(if d = '\r' then '\n' else d) :: u, by
          rw [List.cons_append, unifyLineEnds_cons hcut, hu, List.cons_append]⟩
      · -- a pair at the very end
        simp only [Uncut, List.getLast?_singleton, Option.some.injEq, Classical.not_not] at hcut
        obtain ⟨rfl, hhead⟩ := hcut
        cases rest with
        | nil =>
          obtain rfl : c = '\n' := by simpa using hhead
          exact ⟨[], rfl⟩
        | cons e rest =>
          obtain rfl : e = '\n' := by simpa using hhead
          exact absurd rfl (hpair rest rfl)
  obtain ⟨u, hu⟩ := hlast
  rw [hu, Position.after_append, Position.after_cons, Position.advance_newline, Position.after_nil]

/-- The line of a marked place starts at a marked place. -/
theorem Marks.exists_lineStart (h : Marks source p n) : ∃ m ≤ n, Marks source p.lineStart m := by
  obtain ⟨a, b, rfl, hcut, rfl, rfl⟩ := h
  induction a using List.reverseRecOn generalizing b with
  | nil => exact ⟨0, Nat.le_refl 0, [], b, rfl, by simp, rfl, rfl⟩
  | append_singleton a c ih =>
    by_cases hc : IsLineEnd c
    · have hcolumn := column_after_lineEnd ⟨1, 0⟩ (a := a) hc
      refine ⟨_, Nat.le_refl _, a ++ [c], b, rfl, hcut, ?_, rfl⟩
      exact congrArg (Position.mk _) hcolumn.symm
    · have hne : c ≠ '\r' ∧ c ≠ '\n' := ⟨fun h => hc (Or.inr h), fun h => hc (Or.inl h)⟩
      have hcut' : Uncut a (c :: b) := by simp [Uncut, hne.2]
      obtain ⟨m, hm, hmark⟩ := ih (c :: b) hcut'
      refine ⟨m, by simp; omega, ?_⟩
      -- the character moves on within the line
      have hunify : unifyLineEnds (a ++ [c]) = unifyLineEnds a ++ [c] := by
        rw [unifyLineEnds_append (by simp [Uncut, hne.2]), unifyLineEnds_cons (by simp),
          if_neg hne.1, unifyLineEnds_nil]
      rw [hunify, Position.after_append, Position.after_cons, Position.after_nil,
        Position.advance_of_ne _ hne.2, List.append_assoc, List.singleton_append]
      exact hmark

/-- A line starts at the offset, or the source ends there. -/
def Boundary (source : List Char) (n : Nat) : Prop :=
  n = source.length ∨ ∃ line, (n, line) ∈ (Index.ofSource source).lines

/-- A place at the start of a line is a boundary. -/
theorem Marks.boundary (h : Marks source p n) (hcolumn : p.column = 0) : Boundary source n := by
  have hoffset := h.offset?
  obtain ⟨a, b, -, -, hp, -⟩ := h
  have hline : 1 ≤ p.line := hp ▸ Position.line_le_after ⟨1, 0⟩ (unifyLineEnds a)
  rw [Index.offset?_eq _ _ hline, hcolumn, placedOffset, Option.some.injEq] at hoffset
  split at hoffset
  · next placed hplaced =>
    rw [charsWithin_zero, Nat.add_zero] at hoffset
    exact .inr ⟨placed.2, hoffset ▸ List.mem_of_getElem? hplaced⟩
  · exact .inl hoffset.symm

/-! ## The line around an offset -/

theorem start_le_of_mem_placedLines {start : Nat} {ls : List (List Char)} {line : Nat × List Char}
    (h : line ∈ placedLines start ls) :
    start ≤ line.1 ∧ line.1 + line.2.length ≤ start + ls.flatten.length := by
  induction ls generalizing start with
  | nil => simp [placedLines] at h
  | cons l ls ih =>
    rw [placedLines_cons, List.mem_cons] at h
    rw [List.flatten_cons, List.length_append]
    rcases h with rfl | h
    · simp only
      omega
    · have := ih h
      omega

/-- What `lineAt` finds: the last line that starts at or before the offset. -/
theorem lineAt_placedLines (start : Nat) {ls : List (List Char)} (hne : ls ≠ []) {x : Nat}
    (hx : start ≤ x) :
    (Index.lineAt x (placedLines start ls)).1 ≤ x ∧
    Index.lineAt x (placedLines start ls) ∈ placedLines start ls ∧
    (x < start + ls.flatten.length → x < (Index.lineAt x (placedLines start ls)).1 +
      (Index.lineAt x (placedLines start ls)).2.length) ∧
    ∀ line ∈ placedLines start ls,
      (line.1 ≤ x → line.1 ≤ (Index.lineAt x (placedLines start ls)).1) ∧
      (x < line.1 → (Index.lineAt x (placedLines start ls)).1 +
        (Index.lineAt x (placedLines start ls)).2.length ≤ line.1) := by
  induction ls generalizing start with
  | nil => contradiction
  | cons l ls ih =>
    cases ls with
    | nil =>
      refine ⟨hx, List.mem_cons_self, ?_, ?_⟩
      · rw [List.flatten_cons, List.flatten_nil, List.append_nil]
        exact id
      · intro line hline
        rw [List.mem_singleton.mp hline]
        exact ⟨fun _ => Nat.le_refl start, fun hlt => absurd hlt (Nat.not_lt.mpr hx)⟩
    | cons l' ls =>
      have hsplit := ih (start + l.length) (by simp)
      have hrest := placedLines_cons (start + l.length) l' ls
      rw [placedLines_cons, placedLines_cons, Index.lineAt]
      split
      · next hnext =>
        -- the offset lies beyond the first line
        obtain ⟨hle, hmem, hlt, hall⟩ := hsplit (by omega)
        rw [placedLines_cons] at hle hmem hlt hall
        rw [List.flatten_cons, List.length_append]
        refine ⟨hle, List.mem_cons_of_mem _ hmem, fun h => hlt (by omega), ?_⟩
        intro line hline
        rcases List.mem_cons.mp hline with rfl | hline
        · rw [← hrest] at hmem
          have := start_le_of_mem_placedLines hmem
          rw [hrest] at this
          simp only at *
          omega
        · exact hall line hline
      · next hnext =>
        refine ⟨hx, List.mem_cons_self, fun _ => by simp only; omega, ?_⟩
        intro line hline
        rcases List.mem_cons.mp hline with rfl | hline
        · simp only
          omega
        · rw [← hrest] at hline
          have := start_le_of_mem_placedLines hline
          simp only
          omega

theorem lines_ne_nil (h : source ≠ []) : lines source ≠ [] := by
  intro hnil
  have := flatten_lines source
  rw [hnil] at this
  exact h this.symm

/-- The line around an offset within the source. -/
theorem lineBounds_bounds {x : Nat} (hx : x < source.length) :
    ((Index.ofSource source).lineBounds x).1 ≤ x ∧
    x < ((Index.ofSource source).lineBounds x).2 ∧
    ((Index.ofSource source).lineBounds x).2 ≤ source.length := by
  have hne : source ≠ [] := List.ne_nil_of_length_pos (by omega)
  obtain ⟨hle, hmem, hlt, -⟩ := lineAt_placedLines 0 (lines_ne_nil hne) (Nat.zero_le x)
  have hend := start_le_of_mem_placedLines hmem
  rw [flatten_lines, Nat.zero_add] at hlt hend
  exact ⟨hle, hlt hx, hend.2⟩

/-- A boundary at or before an offset is at or before the start of its line. -/
theorem Boundary.le_lineBounds {x : Nat} (hn : Boundary source n)
    (hnx : n ≤ x) (hx : x < source.length) : n ≤ ((Index.ofSource source).lineBounds x).1 := by
  have hne : source ≠ [] := List.ne_nil_of_length_pos (by omega)
  obtain ⟨-, -, -, hall⟩ := lineAt_placedLines 0 (lines_ne_nil hne) (Nat.zero_le x)
  rcases hn with rfl | ⟨line, hline⟩
  · omega
  · exact (hall _ hline).1 hnx

/-- A boundary behind an offset is at or behind the end of its line. -/
theorem Boundary.lineBounds_le {x : Nat} (hn : Boundary source n)
    (hxn : x < n) : ((Index.ofSource source).lineBounds x).2 ≤ n := by
  rcases hn with rfl | ⟨line, hline⟩
  · exact (lineBounds_bounds hxn).2.2
  · have hne : lines source ≠ [] := by
      intro hnil
      simp [Index.ofSource, hnil, placedLines] at hline
    obtain ⟨-, -, -, hall⟩ := lineAt_placedLines 0 hne (Nat.zero_le x)
    exact (hall _ hline).2 hxn

end Addon.Source
