import Addon.Proofs.Script.Statement
import Addon.Proofs.Source.Removal

/-!
# Layout — the order of tokens and their offsets

Tokens come in the order of their places, so the moves of a cursor can be read as an order of
places. Through the index these places are offsets of the source.

## The architecture

* **`Within.last_le_last`**, **`Within.pos_le_last`** — moving on leads to later places.
* **`Fresh c`** — all tokens to come stand on later lines than the last token. Whole lines keep this
  (`Within.fresh_of_lines`).
* **`Within.marks_last`**, **`Within.marks_pos`** — the places of a cursor are places of the source.
* **`Lead`**, **`SignAt`** — how the sign of a decorator stands in front of its expression.
-/

namespace Addon.Script

open Text Source

/-! ## The order of tokens -/

namespace Cursor

variable {text : List Char} {c d e : Cursor} {t : Token}

theorem Advances.rest_suffix (hcd : c.Advances d) : d.rest <:+ c.rest := by
  obtain ⟨ts, hts, -⟩ := hcd
  exact ⟨ts, hts.symm⟩

/-- Among tokens of which one is not layout there is such a one. -/
theorem Past.exists_takes (h : c.Past d) :
    ∃ a t b, c.Advances a ∧ a.Takes t b ∧ t.kind.isLayout = false ∧ b.Advances d := by
  obtain ⟨ts, hts, hlast, t, ht, hsolid⟩ := h
  obtain ⟨us, vs, rfl⟩ := List.append_of_mem ht
  rw [lastOf_append] at hlast
  refine ⟨⟨t :: (vs ++ d.rest), lastOf c.last us⟩, t, ⟨vs ++ d.rest, t.reach (lastOf c.last us)⟩,
    ⟨us, by simpa using hts, rfl⟩, ⟨rfl, rfl⟩, hsolid, vs, rfl, hlast⟩

end Cursor

/-- No token starts before the text does. -/
theorem Written.le_start {p : Position} {cs : List Char} {ts : List Token} (h : Written p cs ts) :
    ∀ t ∈ ts, p ≤ t.extent.start := by
  induction h with
  | nil => simp
  | @cons p gap w rest t ts _ _ hstart _ _ ih =>
    intro u hu
    rcases List.mem_cons.mp hu with rfl | hu
    · rw [hstart]
      exact Position.le_after p gap
    · exact Position.le_trans (Position.le_after p gap)
        (Position.le_trans (Position.le_after _ w) (ih u hu))

namespace Cursor

variable {text : List Char} {c d e : Cursor} {t : Token}

/-- The next token in the text: trivia, the text of the token, and the rest of the text. -/
theorem Within.exists_token (h : c.Within text) (ht : c.Takes t d) :
    ∃ front gap w rest, text = front ++ (gap ++ (w ++ rest)) ∧ c.last = placeAfter front ∧
      (front = [] ∨ Solid front) ∧ Trivia gap (w ++ rest) ∧ Spelled t.kind w rest ∧
      c.pos = placeAfter (front ++ gap) ∧
      (t.kind.isLayout = false → d.last = placeAfter (front ++ gap ++ w)) ∧
      Written (placeAfter (front ++ gap ++ w)) rest d.rest := by
  obtain ⟨front, gap, rest, rfl, hlast, hfront, hgap, hwritten⟩ := h
  rw [ht.1] at hwritten
  cases hwritten with
  | @cons _ gap' w rest' _ _ hgap' hw hstart hstop htail =>
    refine ⟨front, gap ++ gap', w, rest', by simp, hlast, hfront, ?_, hw, ?_, ?_, ?_⟩
    · exact Trivia.append (by simpa using hgap) hgap'
    · rw [ht.pos, hstart]
      simp [placeAfter, Position.after_append]
    · intro hsolid
      have hne : t.kind ≠ .newline := by
        intro hkind
        rw [hkind] at hsolid
        cases hsolid
      rw [ht.last hsolid, hstop, if_neg hne]
      simp [placeAfter, Position.after_append]
    · simpa [placeAfter, Position.after_append] using htail

theorem placeAfter_le_append (a b : List Char) : placeAfter a ≤ placeAfter (a ++ b) := by
  rw [placeAfter, placeAfter, Position.after_append]
  exact Position.le_after _ b

/-- No token to come starts before the end of the last one. -/
theorem Within.last_le (h : c.Within text) : ∀ t ∈ c.rest, c.last ≤ t.extent.start := by
  obtain ⟨front, gap, rest, -, hlast, -, -, hwritten⟩ := h
  intro t ht
  rw [hlast]
  exact Position.le_trans (placeAfter_le_append front gap) (hwritten.le_start t ht)

theorem Within.last_le_pos (h : c.Within text) : c.last ≤ c.pos := by
  have hle := h.last_le
  unfold pos
  split
  · next t ts hrest =>
    rw [hrest] at hle
    exact hle t List.mem_cons_self
  · exact Position.le_refl _

/-- The next token is the first one of those to come. -/
theorem Within.pos_le (h : c.Within text) : ∀ t ∈ c.rest, c.pos ≤ t.extent.start := by
  intro u hu
  cases hrest : c.rest with
  | nil =>
    rw [hrest] at hu
    cases hu
  | cons t ts =>
    have ht : c.Takes t ⟨ts, t.reach c.last⟩ := ⟨hrest, rfl⟩
    rw [hrest] at hu
    rcases List.mem_cons.mp hu with rfl | hu
    · rw [ht.pos]
      exact Position.le_refl _
    · obtain ⟨front, gap, w, rest, -, -, -, -, -, hpos, -, htail⟩ := h.exists_token ht
      rw [hpos]
      exact Position.le_trans (placeAfter_le_append _ w) (htail.le_start u hu)

theorem Within.pos_le_of_takes (h : c.Within text) (ht : c.Takes t d)
    (hsolid : t.kind.isLayout = false) : c.pos ≤ d.last := by
  obtain ⟨front, gap, w, rest, -, -, -, -, -, hpos, hlast, -⟩ := h.exists_token ht
  rw [hpos, hlast hsolid]
  exact placeAfter_le_append _ w

/-- Moving on leads to later ends. -/
theorem Within.last_le_last (h : c.Within text) (hcd : c.Advances d) : c.last ≤ d.last := by
  refine hcd.head_induction (P := fun a => a.Within text → a.last ≤ d.last) ?_ ?_ h
  · exact fun _ => Position.le_refl _
  · intro a b t ht ih ha
    refine Position.le_trans ?_ (ih (ha.of_takes ht))
    cases hsolid : t.kind.isLayout with
    | true =>
      rw [ht.2, Token.reach, if_pos hsolid]
      exact Position.le_refl _
    | false => exact Position.le_trans ha.last_le_pos (ha.pos_le_of_takes ht hsolid)

/-- What is taken ends behind the place where the cursor stood. -/
theorem Within.pos_le_last (h : c.Within text) (hcd : c.Past d) : c.pos ≤ d.last := by
  obtain ⟨a, t, b, hca, ht, hsolid, hbd⟩ := hcd.exists_takes
  have ha := h.of_advances hca
  have hmem : t ∈ c.rest := hca.rest_suffix.subset (by rw [ht.1]; exact List.mem_cons_self)
  calc c.pos ≤ t.extent.start := h.pos_le t hmem
    _ = a.pos := ht.pos.symm
    _ ≤ b.last := ha.pos_le_of_takes ht hsolid
    _ ≤ d.last := (ha.of_takes ht).last_le_last hbd

theorem Within.pos_le_pos (h : c.Within text) (hcd : c.Advances d) (hde : d.Past e) :
    c.pos ≤ d.pos := by
  obtain ⟨t, ts, hrest⟩ : ∃ t ts, d.rest = t :: ts := by
    obtain ⟨us, hus, -, u, hu, -⟩ := hde
    cases us with
    | nil => cases hu
    | cons t us => exact ⟨t, us ++ e.rest, hus⟩
  have hpos : d.pos = t.extent.start := by rw [pos, hrest]
  rw [hpos]
  exact h.pos_le t (hcd.rest_suffix.subset (by rw [hrest]; exact List.mem_cons_self))

/-! ## Starts of lines -/

/-- All tokens to come stand on later lines than the last token, or the text starts here. -/
def Fresh (c : Cursor) : Prop :=
  ∀ t ∈ c.rest, c.last ≤ t.extent.start.lineStart

theorem Fresh.of_takes (h : c.Fresh) (ht : c.Takes t d) (hlayout : t.kind.isLayout = true) :
    d.Fresh := by
  intro u hu
  rw [ht.2, Token.reach, if_pos hlayout]
  exact h u (by rw [ht.1]; exact List.mem_cons_of_mem t hu)

/-- Behind the end of a line all tokens stand on later lines. -/
theorem Within.fresh_of_newline (h : c.Within text) (ht : c.Takes t d) (hk : t.kind = .newline) :
    d.Fresh := by
  obtain ⟨front, gap, w, rest, -, hlast, -, -, hw, -, -, htail⟩ := h.exists_token ht
  rw [hk] at hw
  obtain rfl : w = ['\n'] := hw
  have hle : placeAfter front ≤ placeAfter (front ++ gap) := placeAfter_le_append front gap
  intro u hu
  have hu := htail.le_start u hu
  rw [placeAfter, Position.after_append, Position.after_cons, Position.advance_newline,
    Position.after_nil, ← placeAfter, Position.le_def] at hu
  rw [ht.2, Token.reach, if_pos (hk ▸ rfl), hlast, Position.le_def, Position.lineStart]
  rw [Position.le_def] at hle
  simp only at hu ⊢
  omega

theorem Within.fresh_of_endsLine (h : c.Within text) (hcd : c.EndsLine d) : d.Fresh := by
  obtain ⟨m, t, hcm, ht, hk⟩ := hcd
  exact (h.of_advances hcm).fresh_of_newline ht hk

/-- Whole lines lead from the start of a line to the start of a line. -/
theorem Within.fresh_of_lines (h : c.Within text) (hc : c.Fresh) (hcd : c.Lines d) : d.Fresh := by
  induction hcd with
  | refl => exact hc
  | layout _ ht hlayout ih => exact ih.of_takes ht hlayout
  | line hline => exact h.fresh_of_endsLine hline

/-- The first token is fresh. -/
theorem Within.fresh_of_start (h : c.Within text) (hlast : c.last = ⟨1, 0⟩) : c.Fresh := by
  intro t ht
  have hle := h.last_le t ht
  rw [hlast, Position.le_def] at hle ⊢
  simp only [Position.lineStart] at hle ⊢
  omega

end Cursor

/-! ## Offsets in the source -/

/-- The text that is read from a source: with unified line ends, of which one comes last. -/
def readText (source : List Char) : List Char :=
  withFinalNewline (unifyLineEnds source)

/-- The front of the text that is read, unless it goes as far as a line end that was added, is the
front of the source. -/
theorem prefix_of_readText {source front rest : List Char} (h : readText source = front ++ rest)
    (hfront : rest ≠ [] ∨ front = [] ∨ Solid front) :
    ∃ v, unifyLineEnds source = front ++ v ∧ v <+: rest := by
  unfold readText withFinalNewline at h
  split at h
  · exact ⟨rest, h, List.prefix_refl rest⟩
  · rcases List.eq_nil_or_concat rest with rfl | ⟨init, x, rfl⟩
    · rcases hfront with hne | rfl | ⟨init, x, rfl, hx⟩
      · exact absurd rfl hne
      · simp at h
      · rw [List.append_nil] at h
        obtain ⟨-, hlast⟩ := List.append_inj' h rfl
        exact absurd (List.cons.inj hlast).1.symm hx
    · rw [List.concat_eq_append, ← List.append_assoc] at h
      exact ⟨init, (List.append_inj' h rfl).1, [x], by simp⟩

/-- A text without line ends is not changed by unifying them. -/
theorem eq_of_unifyLineEnds {a : List Char} (h : ∀ c ∈ unifyLineEnds a, c ≠ '\n') :
    unifyLineEnds a = a := by
  induction a using unifyLineEnds.induct with
  | case1 => rfl
  | case2 rest => exact absurd rfl (h '\n' (by simp))
  | case3 c rest hpair ih =>
    rw [unifyLineEnds] at h ⊢
    · have hc : c ≠ '\r' := by
        rintro rfl
        exact h '\n' (by simp) rfl
      rw [if_neg hc, ih fun x hx => h x (List.mem_cons_of_mem _ hx)]
    · exact hpair
    · exact hpair

/-- The offsets around a part of the text, and the source between them and behind them. -/
theorem exists_offsets {source front mid v : List Char}
    (h : unifyLineEnds source = front ++ mid ++ v) :
    ∃ m n, m ≤ n ∧ Marks source (placeAfter front) m ∧ Marks source (placeAfter (front ++ mid)) n ∧
      unifyLineEnds (cut source m n) = mid ∧ unifyLineEnds (source.drop n) = v := by
  obtain ⟨a, b, rfl, hcut, ha, rfl⟩ := exists_uncut_of_unifyLineEnds h
  obtain ⟨a, t, rfl, hcut', rfl, rfl⟩ := exists_uncut_of_unifyLineEnds ha
  refine ⟨a.length, (a ++ t).length, by simp,
    ⟨a, t ++ b, by simp, hcut'.append_right hcut, rfl, rfl⟩,
    ⟨a ++ t, b, rfl, hcut, by rw [ha, placeAfter], rfl⟩, ?_, ?_⟩
  · rw [cut, List.take_left, List.drop_left]
  · rw [List.drop_left]

namespace Cursor

variable {source : List Char} {c d e : Cursor} {t : Token}

/-- The end of the last token is a place of the source. -/
theorem Within.marks_last (h : c.Within (readText source)) : ∃ n, Marks source c.last n := by
  obtain ⟨front, gap, rest, htext, hlast, hfront, -, -⟩ := h
  obtain ⟨v, hv, -⟩ := prefix_of_readText htext (.inr hfront)
  rw [← List.append_nil front] at hv
  obtain ⟨n, -, -, hn, -⟩ := exists_offsets hv
  exact ⟨n, hlast ▸ hn⟩

end Cursor

/-- A text with a token in it that is not layout is not empty. -/
theorem Written.ne_nil {p : Position} {cs : List Char} {ts : List Token} (h : Written p cs ts)
    {t : Token} (ht : t ∈ ts) (hsolid : t.kind.isLayout = false) : cs ≠ [] := by
  induction h with
  | nil => cases ht
  | cons _ hw _ _ _ ih =>
    rcases List.mem_cons.mp ht with rfl | ht
    · simp [(hw.solid hsolid).ne_nil]
    · simp [ih ht]

namespace Cursor

variable {source : List Char} {c d e : Cursor} {t : Token}

/-- Only trivia stands in front of the next token. -/
theorem Within.exists_gap {text : List Char} (h : c.Within text) (hcd : c.Past d) :
    ∃ front gap rest, text = front ++ (gap ++ rest) ∧ c.last = placeAfter front ∧
      c.pos = placeAfter (front ++ gap) ∧ Trivia gap rest ∧ rest ≠ [] := by
  obtain ⟨ts, hts, -, u, hu, hsolid⟩ := hcd
  cases ts with
  | nil => cases hu
  | cons t ts =>
    have ht : c.Takes t ⟨ts ++ d.rest, t.reach c.last⟩ := ⟨hts, rfl⟩
    obtain ⟨front, gap, w, rest, htext, hlast, -, hgap, hw, hpos, -, htail⟩ := h.exists_token ht
    refine ⟨front, gap, w ++ rest, htext, hlast, hpos, hgap, ?_⟩
    rcases List.mem_cons.mp hu with rfl | hu
    · simp [(hw.solid hsolid).ne_nil]
    · simp [htail.ne_nil (List.mem_append_left _ hu) hsolid]

/-- The place of the next token is a place of the source, if not only layout is to come. -/
theorem Within.marks_pos (h : c.Within (readText source)) (hcd : c.Past d) :
    ∃ n, Marks source c.pos n := by
  obtain ⟨front, gap, rest, htext, -, hpos, -, hne⟩ := h.exists_gap hcd
  rw [← List.append_assoc] at htext
  obtain ⟨v, hv, -⟩ := prefix_of_readText htext (.inl hne)
  obtain ⟨m, n, -, -, hn, -⟩ := exists_offsets hv
  exact ⟨n, hpos ▸ hn⟩

end Cursor

namespace Cursor

variable {source : List Char} {c d e : Cursor} {t : Token}

/-- A token whose text goes over no line end stands in the source as it is read. -/
theorem Within.exists_lexeme (h : c.Within (readText source)) (ht : c.Takes t d)
    (hsolid : t.kind.isLayout = false)
    (hflat : ∀ w rest, Spelled t.kind w rest → ∀ x ∈ w, x ≠ '\n') :
    ∃ n w tail rest, Marks source c.pos n ∧ source.drop n = w ++ tail ∧
      Marks source d.last (n + w.length) ∧ Spelled t.kind w rest ∧ unifyLineEnds tail <+: rest := by
  obtain ⟨front, gap, w, rest, htext, -, -, -, hw, hpos, hlast, -⟩ := h.exists_token ht
  rw [hpos, hlast hsolid]
  have htext' : readText source = (front ++ gap ++ w) ++ rest := by simpa using htext
  have hends : Solid (front ++ gap ++ w) := by
    obtain ⟨init, x, rfl, hx⟩ := hw.solid hsolid
    exact ⟨front ++ gap ++ init, x, by simp, hx⟩
  obtain ⟨v, hv, hbegins⟩ := prefix_of_readText htext' (.inr (.inr hends))
  obtain ⟨m, n, hmn, hm, hn, hmid, rfl⟩ := exists_offsets hv
  -- the text of the token is the same in both
  have hsame : cut source m n = w := by
    rw [← hmid, eq_of_unifyLineEnds]
    rw [hmid]
    exact hflat w rest hw
  have hlength : n = m + w.length := by
    have := hn.le_length
    rw [← hsame, cut, List.length_drop, List.length_take]
    omega
  refine ⟨m, w, source.drop n, rest, hm, ?_, hlength ▸ hn, hw, hbegins⟩
  rw [← hsame, cut_eq_take_drop, hlength, Nat.add_sub_cancel_left, ← List.drop_drop,
    List.take_append_drop]

/-- The sign of a decorator in the source. -/
theorem Within.marks_sign (h : c.Within (readText source)) (ht : c.Takes t d)
    (hk : t.kind = .op "@") :
    ∃ n, Marks source c.pos n ∧ source[n]? = some '@' ∧ Marks source d.last (n + 1) := by
  have hflat : ∀ w rest, Spelled t.kind w rest → w = ['@'] := by
    intro w rest hw
    rw [hk] at hw
    exact hw.2
  obtain ⟨n, w, tail, rest, hn, hdrop, hlast, hw, -⟩ := h.exists_lexeme ht (hk ▸ rfl) (by
    intro w rest hw x hx
    rw [hflat w rest hw, List.mem_singleton] at hx
    rw [hx]
    decide)
  rw [hflat w rest hw] at hdrop hlast
  refine ⟨n, hn, ?_, hlast⟩
  rw [← List.head?_drop, hdrop]
  rfl

end Cursor

/-- The word at an offset. -/
def wordAt (source : List Char) (n : Nat) : List Char :=
  (source.drop n).takeWhile mayContinueWord

/-- What goes on with no word once its line ends are unified does so before. -/
theorem takeWhile_of_unifyLineEnds {tail rest : List Char} (hbegins : unifyLineEnds tail <+: rest)
    (hrest : rest.takeWhile mayContinueWord = []) : tail.takeWhile mayContinueWord = [] := by
  cases tail with
  | nil => rfl
  | cons x tail =>
    by_cases hx : x = '\r'
    · subst hx
      rfl
    · rw [unifyLineEnds_cons (by simp [Uncut, hx]), if_neg hx] at hbegins
      obtain ⟨more, rfl⟩ := hbegins
      have hstop : mayContinueWord x = false := by
        by_contra hcontinue
        simp [List.takeWhile_cons, hcontinue] at hrest
      rw [List.takeWhile_cons_of_neg (by simp [hstop])]

namespace Cursor

variable {source : List Char} {c d e : Cursor} {t : Token}

/-- An identifier in the source: the word that is written there stands for it in its normal form. -/
theorem Within.marks_name (h : c.Within (readText source)) (ht : c.Takes t d) {id : String}
    {plain : Bool} (hk : t.kind = .name id plain) :
    ∃ n, Marks source c.pos n ∧ Marks source d.last (n + (wordAt source n).length) ∧
      wordAt source n ≠ [] ∧ id = String.ofList (Unicode.normalize (wordAt source n)) := by
  obtain ⟨n, w, tail, rest, hn, hdrop, hlast, hw, hbegins⟩ := h.exists_lexeme ht (hk ▸ rfl) (by
    intro w rest hw x hx
    rw [hk] at hw
    have hword := hw.2.1
    rw [← hword] at hx
    exact ne_newline_of_mayContinueWord (List.mem_takeWhile_imp hx))
  rw [hk] at hw
  obtain ⟨hsolid, htake, hid⟩ := hw
  have hall : ∀ x ∈ w, mayContinueWord x = true := by
    intro x hx
    rw [← htake] at hx
    exact List.mem_takeWhile_imp hx
  rw [List.takeWhile_append_of_pos hall] at htake
  have hword : wordAt source n = w := by
    rw [wordAt, hdrop, List.takeWhile_append_of_pos hall,
      takeWhile_of_unifyLineEnds hbegins (by simpa using htake), List.append_nil]
  exact ⟨n, hn, by rwa [hword], by rw [hword]; exact hsolid.ne_nil, by rwa [hword]⟩

end Cursor

/-! ## In front of a decorator -/

theorem Trivia.of_prefix {gap after front : List Char} (h : Trivia gap after)
    (hfront : front <+: after) :
    Trivia gap front := by
  induction h with
  | nil => exact .nil front
  | blank hc _ ih => exact .blank hc (ih hfront)
  | lineEnd _ ih => exact .lineEnd (ih hfront)
  | join _ ih => exact .join (ih hfront)
  | comment hbody hend _ ih =>
    refine .comment hbody (fun x hx => hend x ?_) (ih hfront)
    obtain ⟨more, rfl⟩ := hfront
    rw [← List.append_assoc, List.head?_append, Option.mem_def.mp hx]
    rfl

/-- Behind the last line end of trivia there are only blanks. -/
theorem Trivia.exists_blanks {gap after : List Char} (h : Trivia gap after)
    (hafter : ∃ x more, after = x :: more ∧ x ≠ '\n') :
    ∃ lines blanks, gap = lines ++ blanks ∧ (lines = [] ∨ ∃ init, lines = init ++ ['\n']) ∧
      ∀ x ∈ blanks, isInlineBlank x = true := by
  induction h with
  | nil => exact ⟨[], [], rfl, .inl rfl, by simp⟩
  | @blank c gap _ hc _ ih =>
    obtain ⟨lines, blanks, rfl, hlines, hblanks⟩ := ih hafter
    rcases hlines with rfl | ⟨init, rfl⟩
    · exact ⟨[], c :: blanks, rfl, .inl rfl, by simpa using ⟨hc, hblanks⟩⟩
    · exact ⟨c :: (init ++ ['\n']), blanks, rfl, .inr ⟨c :: init, rfl⟩, hblanks⟩
  | lineEnd _ ih =>
    obtain ⟨lines, blanks, rfl, hlines, hblanks⟩ := ih hafter
    refine ⟨'\n' :: lines, blanks, rfl, .inr ?_, hblanks⟩
    rcases hlines with rfl | ⟨init, rfl⟩
    · exact ⟨[], rfl⟩
    · exact ⟨'\n' :: init, rfl⟩
  | join _ ih =>
    obtain ⟨lines, blanks, rfl, hlines, hblanks⟩ := ih hafter
    refine ⟨'\\' :: '\n' :: lines, blanks, rfl, .inr ?_, hblanks⟩
    rcases hlines with rfl | ⟨init, rfl⟩
    · exact ⟨['\\'], rfl⟩
    · exact ⟨'\\' :: '\n' :: init, rfl⟩
  | @comment body gap _ _ hend _ ih =>
    obtain ⟨lines, blanks, rfl, hlines, hblanks⟩ := ih hafter
    rcases hlines with rfl | ⟨init, rfl⟩
    · -- a comment ends with its line, which no blank and no token starts with
      obtain ⟨x, more, rfl, hx⟩ := hafter
      cases blanks with
      | nil => exact absurd (hend x rfl) hx
      | cons y blanks =>
        have hy := hblanks y List.mem_cons_self
        rw [hend y rfl] at hy
        cases hy
    · exact ⟨'#' :: (body ++ (init ++ ['\n'])), blanks, by simp,
        .inr ⟨'#' :: (body ++ init), by simp⟩, hblanks⟩

/-- What may stand between the sign of a decorator and its expression: trivia and opening
parentheses. -/
inductive Lead : List Char → List Char → Prop where
  | trivia {gap after : List Char} (h : Trivia gap after) : Lead gap after
  | paren {gap lead after : List Char} (hgap : Trivia gap ('(' :: (lead ++ after)))
      (h : Lead lead after) : Lead (gap ++ '(' :: lead) after

theorem Lead.of_prefix {lead after front : List Char} (h : Lead lead after)
    (hfront : front <+: after) :
    Lead lead front := by
  induction h with
  | trivia h => exact .trivia (h.of_prefix hfront)
  | @paren gap lead _ hgap _ ih =>
    refine .paren (hgap.of_prefix ?_) (ih hfront)
    rw [List.cons_prefix_cons]
    exact ⟨rfl, (List.prefix_append_right_inj lead).mpr hfront⟩

/-- A place belongs to one front of a text only. -/
theorem eq_of_placeAfter {a b a' b' : List Char} (h : a ++ b = a' ++ b')
    (hplace : placeAfter a = placeAfter a') : a = a' ∧ b = b' := by
  have hsame : ∀ {a t : List Char}, placeAfter a = placeAfter (a ++ t) → t = [] := by
    intro a t ht
    by_contra hne
    rw [placeAfter, placeAfter, Position.after_append] at ht
    exact Position.not_after_le (Position.after ⟨1, 0⟩ a) hne
      (by rw [← ht]; exact Position.le_refl _)
  rcases List.append_eq_append_iff.mp h with ⟨t, rfl, rfl⟩ | ⟨t, rfl, rfl⟩
  · rw [hsame hplace]
    simp
  · rw [hsame hplace.symm]
    simp

namespace Cursor

variable {source text : List Char} {a b c d : Cursor} {t : Token}

/-- Opening parentheses lead up to the next token. -/
theorem Within.exists_lead (h : c.Within text) (hca : c.Opens a) (hab : a.Past b) :
    ∃ front lead rest, text = front ++ (lead ++ rest) ∧ c.last = placeAfter front ∧
      a.pos = placeAfter (front ++ lead) ∧ Lead lead rest ∧ rest ≠ [] := by
  induction hca with
  | refl c =>
    obtain ⟨front, gap, rest, htext, hlast, hpos, hgap, hne⟩ := h.exists_gap hab
    exact ⟨front, gap, rest, htext, hlast, hpos, .trivia hgap, hne⟩
  | @paren c d e t ht hk _ ih =>
    obtain ⟨front', lead, rest, htext', hlast', hpos, hlead, hne⟩ := ih (h.of_takes ht) hab
    obtain ⟨front, gap, w, tail, htext, hlast, -, hgap, hw, -, hend, -⟩ := h.exists_token ht
    rw [hk] at hw
    obtain rfl : w = ['('] := hw.2
    -- both splits go through the same place
    have hsplit : front' ++ (lead ++ rest) = (front ++ gap ++ ['(']) ++ tail := by
      rw [← htext', htext]
      simp
    obtain ⟨rfl, rfl⟩ := eq_of_placeAfter hsplit (hlast'.symm.trans (hend (hk ▸ rfl)))
    refine ⟨front, gap ++ '(' :: lead, rest, by simpa using htext, hlast, ?_,
      .paren hgap hlead, hne⟩
    simpa using hpos

/-- A text without line ends stays on its line. -/
theorem line_after {p : Position} {cs : List Char} (h : ∀ x ∈ cs, x ≠ '\n') :
    (p.after cs).line = p.line := by
  induction cs generalizing p with
  | nil => rfl
  | cons x cs ih =>
    rw [Position.after_cons, ih fun y hy => h y (List.mem_cons_of_mem _ hy),
      Position.advance_of_ne _ (h x List.mem_cons_self)]

/-- On the line of the first token of a logical line there are only blanks before it. -/
theorem Within.blank_before (h : c.Within (readText source)) (hc : c.Fresh) (ht : c.Takes t d)
    (hk : t.kind = .op "@") :
    ∃ m n, m ≤ n ∧ Marks source c.pos.lineStart m ∧ Marks source c.pos n ∧
      ∀ x ∈ cut source m n, isInlineBlank x = true := by
  obtain ⟨front, gap, w, rest, htext, hlast, -, hgap, hw, hpos, -, -⟩ := h.exists_token ht
  rw [hk] at hw
  obtain rfl : w = ['@'] := hw.2
  obtain ⟨lines, blanks, rfl, hlines, hblanks⟩ := hgap.exists_blanks ⟨'@', rest, rfl, by decide⟩
  have hflat : ∀ x ∈ blanks, x ≠ '\n' := by
    rintro x hx rfl
    cases hblanks _ hx
  have hline : c.pos.line = (placeAfter (front ++ lines)).line := by
    rw [hpos, ← List.append_assoc, placeAfter, Position.after_append, line_after hflat, placeAfter]
  have hstart : placeAfter (front ++ lines) = c.pos.lineStart := by
    have hcolumn : (placeAfter (front ++ lines)).column = 0 := by
      rcases hlines with rfl | ⟨init, rfl⟩
      · -- no line end: the last token ends where the line starts
        have hle := hc t (by rw [ht.1]; exact List.mem_cons_self)
        rw [← ht.pos, hlast, Position.le_def, Position.lineStart] at hle
        simp only [List.append_nil] at hline hle ⊢
        omega
      · rw [← List.append_assoc, placeAfter, Position.after_append, Position.after_cons,
          Position.advance_newline, Position.after_nil]
    rw [Position.lineStart, hline, ← hcolumn]
  have htext' : readText source = (front ++ lines ++ blanks) ++
      ('@' :: rest) := by simpa using htext
  obtain ⟨v, hv, -⟩ := prefix_of_readText htext' (.inl (by simp))
  obtain ⟨m, n, hmn, hm, hn, hmid, -⟩ := exists_offsets hv
  refine ⟨m, n, hmn, hstart ▸ hm, ?_, ?_⟩
  · rw [hpos, ← List.append_assoc]
    exact hn
  · have hraw : unifyLineEnds (cut source m n) = cut source m n := by
      refine eq_of_unifyLineEnds ?_
      rw [hmid]
      exact hflat
    rw [← hraw, hmid]
    exact hblanks

end Cursor

end Addon.Script
