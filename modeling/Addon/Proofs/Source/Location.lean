import Addon.Proofs.Source.Index
import Addon.Proofs.Text.Encoding
import Addon.Violation

/-!
# Location — code can be cut out between marked places

A location quotes the code between two places, which are lines and byte columns. Such a cut fails on
a line that is not there and on a column inside a character. Neither happens at the places that
reading the source leads to: a marked place before the end of the source stands in a line, behind
whole characters (`Marks.exists_line`). So the location of an extent between two of them can always
be given (`locate_of_marks`).
-/

namespace Addon.Source

open Script Text

/-! ## Lines of marked places -/

/-- Behind a part `pre` of the current line, reading `a` leads into a line, if something is
left. The induction is the one of `placedOffset_after`: line ends start a line anew, all
else moves over to `pre`. -/
theorem exists_line_after (pre a b : List Char) (hpre : ∀ c ∈ pre, ¬ IsLineEnd c) (hcut : Uncut a b)
    (hb : b ≠ []) :
    ∃ front back,
      (lines (pre ++ (a ++ b)))[(Position.after ⟨1, byteLength pre⟩ (unifyLineEnds a)).line - 1]? =
        some (front ++ back) ∧
      (Position.after ⟨1, byteLength pre⟩ (unifyLineEnds a)).column = byteLength front := by
  -- the step over a line end: one more line in front, one line further down
  have hshift : ∀ (first rest : List Char) (others : List (List Char)), (∃ front back,
      others[(Position.after ⟨1, byteLength []⟩ (unifyLineEnds rest)).line - 1]? =
        some (front ++ back) ∧
        (Position.after ⟨1, byteLength []⟩ (unifyLineEnds rest)).column = byteLength front) →
      ∃ front back,
        (first :: others)[(Position.after ⟨1 + 1, 0⟩ (unifyLineEnds rest)).line - 1]? =
          some (front ++ back) ∧
          (Position.after ⟨1 + 1, 0⟩ (unifyLineEnds rest)).column = byteLength front := by
    rintro first rest others ⟨front, back, hline, hcolumn⟩
    have hle := Position.line_le_after ⟨1, 0⟩ (unifyLineEnds rest)
    refine ⟨front, back, ?_, ?_⟩
    · rw [Position.after_succ_line, Nat.add_sub_cancel, ← Nat.sub_add_cancel hle,
        List.getElem?_cons_succ]
      exact hline
    · rw [Position.after_succ_line]
      exact hcolumn
  induction a using unifyLineEnds.induct generalizing pre with
  | case1 =>
    rw [unifyLineEnds_nil, Position.after_nil, List.nil_append]
    cases pre with
    | nil =>
      obtain ⟨line, others, hlines⟩ := List.exists_cons_of_ne_nil (lines_ne_nil hb)
      exact ⟨[], line, by simp [hlines], rfl⟩
    | cons c pre =>
      refine ⟨c :: pre, (lines b).headD [], ?_, rfl⟩
      rw [lines_append hpre (by simp), Nat.sub_self, List.getElem?_cons_zero]
  | case2 rest ih =>
    have hlines : lines (pre ++ ('\r' :: '\n' :: rest ++ b)) =
        (pre ++ ['\r', '\n']) :: lines (rest ++ b) :=
      lines_append_lineEnd (e := ['\r', '\n']) hpre (lines_pair _)
    rw [unifyLineEnds_pair, Position.after_cons, Position.advance_newline, hlines]
    exact hshift _ rest _ (ih [] (by simp) hcut.of_cons.of_cons)
  | case3 c rest hpair ih =>
    have hc : Uncut [c] rest := .singleton hpair
    rw [unifyLineEnds_cons hc, Position.after_cons]
    by_cases hend : IsLineEnd c
    · have hlines : lines (pre ++ (c :: rest ++ b)) = (pre ++ [c]) :: lines (rest ++ b) :=
        lines_append_lineEnd (e := [c]) hpre (lines_lineEnd hend (hc.append_right hcut))
      have hnewline : (if c = '\r' then '\n' else c) = '\n' := by
        rcases hend with rfl | rfl <;> rfl
      rw [hnewline, Position.advance_newline, hlines]
      exact hshift _ rest _ (ih [] (by simp) hcut.of_cons)
    · have hne : c ≠ '\r' ∧ c ≠ '\n' := ⟨fun h => hend (Or.inr h), fun h => hend (Or.inl h)⟩
      have hrest := ih (pre ++ [c]) (by simpa [or_imp, forall_and] using ⟨hpre, hend⟩) hcut.of_cons
      rw [if_neg hne.1, Position.advance_of_ne _ hne.2]
      rwa [byteLength_append, byteLength_cons, byteLength_nil, Nat.add_zero,
        List.append_assoc] at hrest

/-- A marked place before the end of the source stands in a line, behind whole characters. -/
theorem Marks.exists_line {source : List Char} {p : Position} {n : Nat} (h : Marks source p n)
    (hn : n < source.length) :
    ∃ front back, lineAt (lines source) ((p.line : Int) - 1) = .ok (front ++ back) ∧
    p.column = byteLength front := by
  obtain ⟨a, b, rfl, hcut, rfl, rfl⟩ := h
  have hb : b ≠ [] := by
    rintro rfl
    simp at hn
  obtain ⟨front, back, hline, hcolumn⟩ := exists_line_after [] a b (by simp) hcut hb
  refine ⟨front, back, ?_, hcolumn⟩
  have hle := Position.line_le_after ⟨1, 0⟩ (unifyLineEnds a)
  rw [byteLength_nil, List.nil_append] at hline
  have hitem : itemAt? (lines (a ++ b)) ((Position.after ⟨1, 0⟩ (unifyLineEnds a)).line - 1 : Int) =
      some (front ++ back) := by
    simp only at hle
    rw [itemAt?, if_neg (by omega), placeOf, if_neg (by omega), ← hline]
    congr 1
    omega
  rw [lineAt, hitem]

/-! ## Cuts through lines -/

theorem placeOf_natCast (length n : Nat) : placeOf length n = n := by
  rw [placeOf, if_neg (by omega), Int.toNat_natCast]

theorem textOf_encode (cs : List Char) : textOf (encode cs) = .ok cs := by
  rw [textOf, decode_encode]

/-- The bytes between two cuts through a line are those of a text. -/
theorem exists_slice {front back front' back' : List Char} (h : front ++ back = front' ++ back') :
    ∃ cs, slice (encode (front ++ back)) (byteLength front) (byteLength front') = encode cs := by
  have htake : (encode (front ++ back)).take (byteLength front') = encode front' := by
    rw [h, encode_append, ← length_encode, List.take_left]
  simp only [slice, placeOf_natCast]
  rw [htake]
  rcases List.append_eq_append_iff.mp h with ⟨mid, rfl, -⟩ | ⟨mid, rfl, -⟩
  · refine ⟨mid, ?_⟩
    rw [encode_append, ← length_encode, List.drop_left]
  · -- the second cut comes first
    refine ⟨[], ?_⟩
    rw [encode_nil, List.drop_eq_nil_iff, length_encode, byteLength_append]
    omega

theorem slice_from (front back : List Char) :
    slice (encode (front ++ back)) (byteLength front) (encode (front ++ back)).length =
      encode back := by
  simp only [slice, placeOf_natCast, List.take_length]
  rw [encode_append, ← length_encode, List.drop_left]

theorem slice_upTo (front back : List Char) :
    slice (encode (front ++ back)) 0 (byteLength front) = encode front := by
  have hzero : placeOf (encode (front ++ back)).length 0 = 0 := placeOf_natCast _ 0
  simp only [slice, placeOf_natCast]
  rw [hzero, List.drop_zero, encode_append, ← length_encode, List.take_left]

/-- The text between two marked places can be cut out. -/
theorem exists_segment {source : List Char} {p q : Position} {n m : Nat} (hp : Marks source p n)
    (hq : Marks source q m) (hn : n < source.length) (hm : m < source.length) :
    ∃ cs, segment source ((p.line : Int) - 1) p.column ((q.line : Int) - 1) q.column = .ok cs := by
  obtain ⟨front, back, hline, hcolumn⟩ := hp.exists_line hn
  obtain ⟨front', back', hline', hcolumn'⟩ := hq.exists_line hm
  rw [segment, hcolumn, hcolumn']
  dsimp only
  split
  · next hsame =>
    rw [hsame, hline] at hline'
    obtain ⟨cs, hcs⟩ := exists_slice (Except.ok.inj hline')
    refine ⟨cs, ?_⟩
    rw [hline]
    show textOf (slice _ _ _) = _
    rw [hcs, textOf_encode]
  · rw [hline, hline']
    refine ⟨back ++ (slice (lines source) ((p.line : Int) - 1 + 1) ((q.line : Int) - 1)).flatten ++
      front', ?_⟩
    show (do
      let first ← textOf (slice _ _ _)
      let last ← textOf (slice _ _ _)
      return first ++ _ ++ last) = _
    rw [slice_from, slice_upTo, textOf_encode, textOf_encode]
    rfl

/-- The location of an extent quotes the text between its ends or, if there is none, the
line that it starts in. -/
theorem ofMark?_of_segment {source cs : List Char} {x : Extent}
    (h : segment source ((x.start.line : Int) - 1) x.start.column ((x.stop.line : Int) - 1)
      x.stop.column = .ok cs) :
    Location.ofMark? (.ofExtent x) (some source) = .ok (some ⟨x.start.line, x.start.column + 1,
      (if cs.isEmpty then lineCode? source x.start.line else some (trim cs)).map
      String.ofList⟩) := by
  have hcode : codeAt? source x.start.line (.ofExtent x) =
      .ok (if cs.isEmpty then lineCode? source x.start.line else some (trim cs)) := by
    simp only [codeAt?, Mark.ofExtent, h, bind, Except.bind]
    split <;> rfl
  simp only [Location.ofMark?, Mark.ofExtent] at hcode ⊢
  rw [hcode]
  rfl

/-- **The location of an extent between two marked places** before the end of
the source can be given. -/
theorem locate_of_marks {source : List Char} {x : Extent} {n m : Nat}
    (hstart : Marks source x.start n)
    (hstop : Marks source x.stop m) (hn : n < source.length) (hm : m < source.length) :
    ∃ location, Scope.locate { source := some source } (some (.ofExtent x)) = .ok location := by
  obtain ⟨cs, hcs⟩ := exists_segment hstart hstop hn hm
  exact ⟨_, ofMark?_of_segment hcs⟩

end Addon.Source
