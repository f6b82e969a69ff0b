import Addon.Proofs.Source.Index
import Addon.Proofs.Text.Encoding
import Addon.Source.Removal

/-!
# Columns — byte columns and character offsets

An index answers two questions: which offset a line and a byte column stand for, and which line
is around an offset. Both answers are given in terms of the lines of the source and of where
each starts (`startOfLine`).

## The architecture

* **`charsWithin`** — as many characters as end within the bytes; its laws say
  which column holds how many.
* **`getElem?_placedLines`** — the lines of an index are those of the source at their starts, so
  that the lookup by number (`offset?_line`) and the search for an offset (`exists_bounds`)
  speak of the same places.
* **`source_around`** — a line stands in the source where it starts.
-/

namespace Addon.Source

open Script Text

/-! ## Characters within bytes -/

/-- From the start of a character on, and up to its end, the characters before it
are within the column. -/
theorem charsWithin_inside {cs : List Char} {k column : Nat} (hk : k < cs.length)
    (hlow : byteLength (cs.take k) ≤ column) (hhigh : column < byteLength (cs.take (k + 1))) :
    charsWithin column cs = k := by
  induction cs generalizing k column with
  | nil => cases hk
  | cons c cs ih =>
    rw [List.take_succ_cons, byteLength_cons] at hhigh
    cases k with
    | zero =>
      rw [List.take_zero, byteLength_nil] at hhigh
      rw [charsWithin, if_neg (by omega)]
    | succ k =>
      rw [List.take_succ_cons, byteLength_cons] at hlow
      rw [charsWithin, if_pos (by omega), ih (Nat.lt_of_succ_lt_succ hk) (by omega) (by omega)]

/-- All characters are within a column beyond them. -/
theorem charsWithin_of_le {cs : List Char} {column : Nat} (h : byteLength cs ≤ column) :
    charsWithin column cs = cs.length := by
  induction cs generalizing column with
  | nil => rfl
  | cons c cs ih =>
    rw [byteLength_cons] at h
    rw [charsWithin, if_pos (by omega), ih (by omega), List.length_cons]

theorem charsWithin_le_length (column : Nat) (cs : List Char) :
    charsWithin column cs ≤ cs.length := by
  fun_induction charsWithin column cs <;> simp_all

theorem charsWithin_mono {column column' : Nat} (h : column ≤ column') (cs : List Char) :
    charsWithin column cs ≤ charsWithin column' cs := by
  induction cs generalizing column column' with
  | nil => exact Nat.le_refl _
  | cons c cs ih =>
    have hrest := ih (show column - c.utf8Size ≤ column' - c.utf8Size by omega)
    rw [charsWithin, charsWithin]
    split
    · rw [if_pos (by omega)]
      omega
    · exact Nat.zero_le _

/-! ## Lines and their starts -/

/-- Where a line starts, given by its index: behind the lines before it. -/
def startOfLine (source : List Char) (i : Nat) : Nat :=
  ((lines source).take i).flatten.length

variable {source line : List Char} {i j : Nat}

/-- A line stands in the source where it starts. -/
theorem source_around (hline : (lines source)[i]? = some line) :
    source = ((lines source).take i).flatten ++ line ++ ((lines source).drop (i + 1)).flatten := by
  have hsplit : lines source = (lines source).take i ++ line :: (lines source).drop (i + 1) := by
    obtain ⟨hi, rfl⟩ := List.getElem?_eq_some_iff.mp hline
    rw [← List.drop_eq_getElem_cons hi, List.take_append_drop]
  have hflat := congrArg List.flatten hsplit
  rw [flatten_lines, List.flatten_append, List.flatten_cons, ← List.append_assoc] at hflat
  exact hflat

theorem startOfLine_succ (hline : (lines source)[i]? = some line) :
    startOfLine source (i + 1) = startOfLine source i + line.length := by
  simp [startOfLine, List.take_add_one, hline]

theorem startOfLine_mono (h : i ≤ j) : startOfLine source i ≤ startOfLine source j := by
  obtain ⟨k, rfl⟩ := Nat.exists_eq_add_of_le h
  rw [startOfLine, startOfLine, List.take_add, List.flatten_append, List.length_append]
  exact Nat.le_add_right _ _

theorem startOfLine_of_none (hline : (lines source)[i]? = none) :
    startOfLine source i = source.length := by
  rw [startOfLine, List.take_of_length_le (List.getElem?_eq_none_iff.mp hline), flatten_lines]

theorem startOfLine_le (source : List Char) (i : Nat) : startOfLine source i ≤ source.length := by
  rw [← startOfLine_of_none (List.getElem?_eq_none (Nat.le_add_left (lines source).length i))]
  exact startOfLine_mono (Nat.le_add_right i _)

theorem getElem?_placedLines (start : Nat) (ls : List (List Char)) (i : Nat) :
    (placedLines start ls)[i]? = ls[i]?.map fun line =>
      (start + (ls.take i).flatten.length, line) := by
  induction ls generalizing start i with
  | nil => rfl
  | cons l ls ih =>
    rw [placedLines_cons]
    cases i with
    | zero => simp
    | succ i =>
      rw [List.getElem?_cons_succ, List.getElem?_cons_succ, ih]
      simp [Nat.add_assoc]

theorem getElem?_lines_ofSource (source : List Char) (i : Nat) :
    (Index.ofSource source).lines[i]? = (lines source)[i]?.map fun line =>
      (startOfLine source i, line) := by
  simp [Index.ofSource, getElem?_placedLines, startOfLine]

/-! ## Offsets of columns -/

/-- The lookup by the number of a line. -/
theorem offset?_line (hline : (lines source)[i]? = some line) (column : Nat) :
    (Index.ofSource source).offset? (i + 1 : Nat) column =
      some (startOfLine source i + charsWithin column line) := by
  rw [Index.offset?_eq _ _ (by omega), placedOffset, Nat.add_sub_cancel,
    getElem?_lines_ofSource, hline]
  rfl

theorem offset?_beyond (hline : (lines source)[i]? = none) (column : Nat) :
    (Index.ofSource source).offset? (i + 1 : Nat) column = some source.length := by
  rw [Index.offset?_eq _ _ (by omega), placedOffset, Nat.add_sub_cancel,
    getElem?_lines_ofSource, hline]
  rfl

/-- Every column stands for an offset between the start of its line and that of the next one. -/
theorem exists_offset? (source : List Char) (i column : Nat) :
    ∃ n, (Index.ofSource source).offset? (i + 1 : Nat) column = some n ∧ startOfLine source i ≤ n ∧
      n ≤ startOfLine source (i + 1) := by
  cases hline : (lines source)[i]? with
  | none =>
    have hnext : startOfLine source i ≤ startOfLine source (i + 1) :=
      startOfLine_mono (Nat.le_succ i)
    rw [startOfLine_of_none hline] at hnext ⊢
    exact ⟨_, offset?_beyond hline column, Nat.le_refl _, hnext⟩
  | some line =>
    refine ⟨_, offset?_line hline column, Nat.le_add_right _ _, ?_⟩
    rw [startOfLine_succ hline]
    exact Nat.add_le_add_left (charsWithin_le_length column line) _

/-- Later places stand for later offsets, none of them beyond the source. -/
theorem offset?_mono (source : List Char) {p q : Position} (hline : 1 ≤ p.line) (hle : p ≤ q) :
    ∃ n m, (Index.ofSource source).offset? p.line p.column = some n ∧
      (Index.ofSource source).offset? q.line q.column = some m ∧ n ≤ m ∧ m ≤ source.length := by
  obtain ⟨i, hi⟩ := Nat.exists_eq_add_of_le' hline
  obtain ⟨j, hj⟩ := Nat.exists_eq_add_of_le' (show 1 ≤ q.line by rw [Position.le_def] at hle; omega)
  rw [Position.le_def, hi, hj] at hle
  rw [hi, hj]
  obtain ⟨n, hn, -, hnext⟩ := exists_offset? source i p.column
  obtain ⟨m, hm, hstart, hstop⟩ := exists_offset? source j q.column
  refine ⟨n, m, hn, hm, ?_, Nat.le_trans hstop (startOfLine_le _ _)⟩
  rcases hle with hlt | ⟨heq, hcolumn⟩
  · exact Nat.le_trans hnext (Nat.le_trans (startOfLine_mono (by omega)) hstart)
  · obtain rfl : i = j := by omega
    cases hat : (lines source)[i]? with
    | none =>
      rw [offset?_beyond hat, Option.some.injEq] at hn hm
      omega
    | some line =>
      have := charsWithin_mono hcolumn line
      rw [offset?_line hat, Option.some.injEq] at hn hm
      omega

/-! ## Lines around offsets -/

/-- The two offsets are the bounds of the line at an index, which stands between them. -/
def IsBounds (source : List Char) (i : Nat) (bounds : Nat × Nat) : Prop :=
  ∃ line, (lines source)[i]? = some line ∧
    bounds = (startOfLine source i, startOfLine source i + line.length) ∧
      cut source bounds.1 bounds.2 = line

theorem cut_middle (a b c : List Char) : cut (a ++ b ++ c) a.length (a.length + b.length) = b := by
  rw [cut, ← List.length_append, List.take_left, List.drop_left]

theorem cut_line (hline : (lines source)[i]? = some line) :
    cut source (startOfLine source i) (startOfLine source i + line.length) = line := by
  have hcut := cut_middle ((lines source).take i).flatten line ((lines source).drop (i + 1)).flatten
  rwa [← source_around hline] at hcut

/-- The search for an offset `x`: the bounds are those of a line, and no line that starts at or
before `x` starts behind that one. -/
theorem exists_bounds (hne : source ≠ []) (x : Nat) :
    ∃ i, IsBounds source i ((Index.ofSource source).lineBounds x) ∧
      ∀ j line, (lines source)[j]? = some line → startOfLine source j ≤ x →
        startOfLine source j ≤ startOfLine source i := by
  obtain ⟨-, hmem, -, hall⟩ := lineAt_placedLines 0 (lines_ne_nil hne) (Nat.zero_le x)
  obtain ⟨i, hi⟩ := List.mem_iff_getElem?.mp hmem
  rw [show placedLines 0 (lines source) = (Index.ofSource source).lines from rfl] at hi hall
  rw [getElem?_lines_ofSource, Option.map_eq_some_iff] at hi
  obtain ⟨line, hline, hfound⟩ := hi
  refine ⟨i, ⟨line, hline, ?_, ?_⟩, fun j other hother hj => ?_⟩
  · rw [Index.lineBounds, ← hfound]
  · rw [Index.lineBounds, ← hfound]
    exact cut_line hline
  · rw [← hfound] at hall
    refine (hall (startOfLine source j, other) (List.mem_iff_getElem?.mpr ⟨j, ?_⟩)).1 hj
    rw [getElem?_lines_ofSource, hother]
    rfl

/-- The end of the source belongs to its last line: an earlier one would be followed by a
line that starts later. -/
theorem isBounds_last (hne : source ≠ []) :
    IsBounds source ((lines source).length - 1)
      ((Index.ofSource source).lineBounds source.length) := by
  obtain ⟨i, hi, hlast⟩ := exists_bounds hne source.length
  obtain ⟨line, hline, -⟩ := id hi
  have hlt := (List.getElem?_eq_some_iff.mp hline).1
  rcases Nat.lt_or_eq_of_le (Nat.le_sub_one_of_lt hlt) with hbefore | rfl
  · obtain ⟨next, hnext⟩ : ∃ next, (lines source)[i + 1]? = some next :=
      ⟨_, List.getElem?_eq_getElem (show i + 1 < (lines source).length by omega)⟩
    have hle := hlast (i + 1) next hnext (startOfLine_le _ _)
    have hpos := List.length_pos_iff.mpr (ne_nil_of_mem_lines (List.mem_of_getElem? hline))
    rw [startOfLine_succ hline] at hle
    omega
  · exact hi

/-! ## The correspondence -/

/-- **Byte columns and character offsets correspond.** In a line, the bytes of the first `k`
characters lead to the `k`-th offset of the line, as do columns inside the character behind them,
and columns beyond the line lead to its end. Offsets lie in the source and are ordered as lines and
columns are. The bounds around an offset are those of the line that it lies in, and around the end
those of the last line. -/
theorem byte_columns_match_offsets (source : List Char) :
    (∀ (i : Nat) (line : List Char), (lines source)[i]? = some line →
      (∀ k ≤ line.length,
        (Index.ofSource source).offset? (i + 1 : Nat) (encode (line.take k)).length =
        some (startOfLine source i + k)) ∧
      (∀ k < line.length, ∀ column : Nat, (encode (line.take k)).length ≤ column →
        column < (encode (line.take (k + 1))).length →
        (Index.ofSource source).offset? (i + 1 : Nat) column = some (startOfLine source i + k)) ∧
      (∀ column : Nat, (encode line).length ≤ column →
        (Index.ofSource source).offset? (i + 1 : Nat) column =
          some (startOfLine source i + line.length))) ∧
    (∀ p q : Position, 1 ≤ p.line → p ≤ q →
      ∃ n m, (Index.ofSource source).offset? p.line p.column = some n ∧
      (Index.ofSource source).offset? q.line q.column = some m ∧ n ≤ m ∧ m ≤ source.length) ∧
    (∀ o < source.length, ∃ i, IsBounds source i ((Index.ofSource source).lineBounds o) ∧
      ((Index.ofSource source).lineBounds o).1 ≤ o ∧ o < ((Index.ofSource source).lineBounds o).2) ∧
    (source ≠ [] →
      IsBounds source ((lines source).length - 1)
      ((Index.ofSource source).lineBounds source.length)) := by
  refine ⟨fun i line hline => ⟨fun k hk => ?_, fun k hk column hlow hhigh => ?_,
    fun column h => ?_⟩, fun p q => offset?_mono source, fun o ho => ?_, isBounds_last⟩
  · have hwithin := charsWithin_append (line.take k) (line.drop k)
    rw [List.take_append_drop, List.length_take_of_le hk] at hwithin
    rw [offset?_line hline, length_encode, hwithin]
  · rw [length_encode] at hlow hhigh
    rw [offset?_line hline, charsWithin_inside hk hlow hhigh]
  · rw [length_encode] at h
    rw [offset?_line hline, charsWithin_of_le h]
  · obtain ⟨i, hi, -⟩ := exists_bounds (List.ne_nil_of_length_pos (Nat.zero_lt_of_lt ho)) o
    obtain ⟨hlow, hhigh, -⟩ := lineBounds_bounds ho
    exact ⟨i, hi, hlow, hhigh⟩

/-- Characters of one, two and four bytes in three lines with different ends. -/
def mixedLines : List Char :=
  ['é', '\r', '\n', '\x0c', 'a', 'é', '\r', '𝄞', 'b']

/-- A column inside the third character of the second line, of which a form feed is the first. -/
theorem byte_columns_match_offsets_mixed :
    (lines mixedLines)[1]? = some ['\x0c', 'a', 'é', '\r'] ∧
      (Index.ofSource mixedLines).offset? (1 + 1 : Nat) (3 : Nat) =
        some (startOfLine mixedLines 1 + 2) := by
  have hline : (lines mixedLines)[1]? = some ['\x0c', 'a', 'é', '\r'] := rfl
  exact ⟨hline, ((byte_columns_match_offsets mixedLines).1 1 _ hline).2.1 2 (by decide) 3
    (by decide) (by decide)⟩

end Addon.Source
