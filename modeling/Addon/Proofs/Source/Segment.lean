import Addon.Proofs.Source.Columns
import Addon.Proofs.Source.Location

/-!
# Segment — quoted code and removed code are the same text

Code is cut out of a source in two ways: locations slice the bytes of single lines (`segment`),
removals slice the characters of the whole source (`cut` at the offsets of an index). At places
behind whole characters both give the same text, be it within a line (`segment_within`) or across
lines (`segment_across`).
-/

namespace Addon.Source

open Script Text

/-- A place behind whole characters of a line that is there. -/
def OnCharacter (source : List Char) (p : Position) : Prop :=
  ∃ i front back, (lines source)[i]? = some (front ++ back) ∧ p = ⟨i + 1, (encode front).length⟩

variable {source line front back front' back' : List Char} {i j : Nat}

theorem lineAt_of_getElem? (hline : (lines source)[i]? = some line) :
    lineAt (lines source) i = .ok line := by
  rw [lineAt, itemAt?, if_neg (by omega), placeOf_natCast, hline]

/-- The offset of a place behind whole characters. -/
theorem offset?_front (hline : (lines source)[i]? = some (front ++ back)) :
    (Index.ofSource source).offset? (i + 1 : Nat) (encode front).length =
      some (startOfLine source i + front.length) := by
  rw [offset?_line hline, length_encode, charsWithin_append]

/-! ## The two cuts -/

theorem segment_within {mid : List Char}
    (hline : (lines source)[i]? = some (front ++ mid ++ back)) :
    segment source i (encode front).length i (encode (front ++ mid)).length =
      .ok (cut source (startOfLine source i + front.length)
        (startOfLine source i + (front ++ mid).length)) := by
  have hcut := cut_middle (((lines source).take i).flatten ++ front) mid
    (back ++ ((lines source).drop (i + 1)).flatten)
  have hbytes :
      slice (encode (front ++ mid ++ back)) (encode front).length (encode (front ++ mid)).length =
      encode mid := by
    simp only [slice, placeOf_natCast]
    rw [encode_append (front ++ mid), List.take_left, encode_append, List.drop_left]
  have hsource := source_around hline
  simp only [← List.append_assoc] at hcut hsource
  rw [← hsource, List.length_append, ← startOfLine, Nat.add_assoc] at hcut
  rw [segment, if_pos rfl, lineAt_of_getElem? hline, List.length_append, hcut,
    ← textOf_encode mid, ← hbytes]
  rfl

/-- The lines before a later line: those before an earlier one, that one, and
those between the two. -/
theorem flatten_take_later (hline : (lines source)[i]? = some line) (hij : i < j) :
    ((lines source).take j).flatten =
      ((lines source).take i).flatten ++ line ++
      (((lines source).take j).drop (i + 1)).flatten := by
  have htake : ((lines source).take j).take (i + 1) = (lines source).take i ++ [line] := by
    rw [List.take_take, Nat.min_eq_left hij, List.take_add_one, hline, Option.toList_some]
  conv_lhs => rw [← List.take_append_drop (i + 1) ((lines source).take j), htake]
  simp

theorem segment_across (hline : (lines source)[i]? = some (front ++ back))
    (hline' : (lines source)[j]? = some (front' ++ back')) (hij : i < j) :
    segment source i (encode front).length j (encode front').length =
      .ok (cut source (startOfLine source i + front.length)
        (startOfLine source j + front'.length)) := by
  have hbefore := flatten_take_later hline hij
  have hsource := source_around hline'
  have hcut := cut_middle (((lines source).take i).flatten ++ front)
    (back ++ (((lines source).take j).drop (i + 1)).flatten ++ front')
    (back' ++ ((lines source).drop (j + 1)).flatten)
  have hstop : (((lines source).take i).flatten ++ front).length +
      (back ++ (((lines source).take j).drop (i + 1)).flatten ++ front').length =
      startOfLine source j + front'.length := by
    rw [startOfLine, hbefore]
    simp only [List.length_append]
    omega
  rw [hbefore] at hsource
  simp only [← List.append_assoc] at hcut hsource
  rw [← hsource, hstop, List.length_append, ← startOfLine] at hcut
  rw [segment, if_neg (by omega), lineAt_of_getElem? hline, lineAt_of_getElem? hline', hcut]
  show (do
    let first ← textOf (slice _ _ _)
    let last ← textOf (slice _ _ _)
    return first ++ _ ++ last) = _
  rw [length_encode front, length_encode front', slice_from, slice_upTo, textOf_encode,
    textOf_encode]
  simp only [slice, placeOf_natCast]
  rfl

/-! ## The same text -/

/-- A cut at or behind another one, in the same text, leaves a middle. -/
theorem exists_middle (h : front ++ back = front' ++ back')
    (hle : byteLength front ≤ byteLength front') :
    ∃ mid, front' = front ++ mid := by
  rcases List.append_eq_append_iff.mp h with ⟨mid, hmid, -⟩ | ⟨mid, hmid, -⟩
  · exact ⟨mid, hmid⟩
  · cases mid with
    | nil => exact ⟨[], by simpa using hmid.symm⟩
    | cons c mid =>
      have := c.utf8Size_pos
      rw [hmid, byteLength_append, byteLength_cons] at hle
      omega

/-- **Quoted code is the code that a removal cuts.** Let both ends of an extent lie behind whole
characters of lines that are there, the first one not after the second one. Then the text that its
location quotes, sliced from the bytes of its lines, is the text of the source between the offsets
of its ends; only if there is none, the location falls back to a line. -/
theorem quoted_code_is_cut_code {source : List Char} {x : Extent}
    (hstart : OnCharacter source x.start)
    (hstop : OnCharacter source x.stop) (hle : x.start ≤ x.stop) :
    ∃ n m, (Index.ofSource source).offset? x.start.line x.start.column = some n ∧
      (Index.ofSource source).offset? x.stop.line x.stop.column = some m ∧ n ≤ m ∧
      segment source ((x.start.line : Int) - 1) x.start.column ((x.stop.line : Int) - 1)
        x.stop.column = .ok (cut source n m) ∧
      Location.ofMark? (.ofExtent x) (some source) = .ok (some ⟨x.start.line, x.start.column + 1,
        (if (cut source n m).isEmpty then lineCode? source x.start.line
          else some (trim (cut source n m))).map String.ofList⟩) := by
  suffices h : ∃ n m, (Index.ofSource source).offset? x.start.line x.start.column = some n ∧
      (Index.ofSource source).offset? x.stop.line x.stop.column = some m ∧
      segment source ((x.start.line : Int) - 1) x.start.column ((x.stop.line : Int) - 1)
        x.stop.column = .ok (cut source n m) by
    obtain ⟨n, m, hn, hm, hsegment⟩ := h
    obtain ⟨n', m', hn', hm', hnm, -⟩ := offset?_mono source (by
      obtain ⟨i, front, back, -, hp⟩ := hstart
      rw [hp]
      exact Nat.le_add_left 1 i) hle
    rw [hn, Option.some.injEq] at hn'
    rw [hm, Option.some.injEq] at hm'
    exact ⟨n, m, hn, hm, hn' ▸ hm' ▸ hnm, hsegment, ofMark?_of_segment hsegment⟩
  obtain ⟨i, front, back, hline, hp⟩ := hstart
  obtain ⟨j, front', back', hline', hq⟩ := hstop
  rw [hp, hq, Position.le_def] at hle
  have hcast : ∀ n : Nat, ((n + 1 : Nat) : Int) - 1 = n := by omega
  rw [hp, hq, hcast, hcast]
  refine ⟨_, _, offset?_front hline, offset?_front hline', ?_⟩
  -- on several lines the code is put together from parts, on one line it is one part
  rcases Nat.lt_or_ge i j with hij | hij
  · exact segment_across hline hline' hij
  · obtain rfl : i = j := by
      dsimp only at hle
      omega
    have hsame : front ++ back = front' ++ back' := Option.some.inj (hline.symm.trans hline')
    rw [length_encode, length_encode] at hle
    obtain ⟨mid, rfl⟩ := exists_middle hsame (hle.resolve_left (Nat.lt_irrefl _)).2
    exact segment_within hline'

/-- From behind a character of two bytes to behind one of four bytes, two lines further down. -/
theorem quoted_code_is_cut_code_mixed :
    ∃ n m, (Index.ofSource mixedLines).offset? (1 : Nat) (2 : Nat) = some n ∧
      (Index.ofSource mixedLines).offset? (3 : Nat) (4 : Nat) = some m ∧ n ≤ m ∧
      segment mixedLines (((1 : Nat) : Int) - 1) (2 : Nat) (((3 : Nat) : Int) - 1) (4 : Nat) =
        .ok (cut mixedLines n m) := by
  have hstart : OnCharacter mixedLines ⟨1, 2⟩ := ⟨0, ['é'], ['\r', '\n'], rfl, rfl⟩
  have hstop : OnCharacter mixedLines ⟨3, 4⟩ := ⟨2, ['𝄞'], ['b'], rfl, rfl⟩
  obtain ⟨n, m, hn, hm, hnm, hsegment, -⟩ :=
    quoted_code_is_cut_code (x := ⟨⟨1, 2⟩, ⟨3, 4⟩⟩) hstart hstop (.inl (by decide))
  exact ⟨n, m, hn, hm, hnm, hsegment⟩

end Addon.Source
