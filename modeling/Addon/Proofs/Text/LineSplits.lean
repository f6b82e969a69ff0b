import Addon.Proofs.Source.Index
import Mathlib.Data.List.Chain

/-!
# LineSplits — which list the lines of a text are

The lines of a text can be told without an algorithm: they make up the text, none is empty, a line
end is nowhere but at the end of a line, every line but the last has one, and no pair of carriage
return and line feed is cut. There is one such list (`lines_unique_split`).

## The architecture

* **`IsBreak`** — a line end in its surroundings. A carriage return is one only
  if no line feed follows.
* **`Splits`** — the conditions. Two steps build such a list along the recursion of `lines`: a line
  end is a line of its own (`Splits.cons_break`), and any other character goes to the front of the
  first line (`Splits.cons_char`).
* **`exists_break_of_closed`** — the shape of a line, by which a list with the conditions
  is read off line by line.
-/

namespace Addon.Text

variable {e rest line : List Char} {c : Char} {ls : List (List Char)}

/-! ## The conditions -/

/-- A line end that `rest` follows. -/
def IsBreak (e rest : List Char) : Prop :=
  e = ['\r', '\n'] ∨ e = ['\n'] ∨ e = ['\r'] ∧ rest.head? ≠ some '\n'

/-- Line ends are nowhere but at the end of the line. -/
def Closed (line : List Char) : Prop :=
  ∀ a e b, line = a ++ (e ++ b) → IsBreak e b → b = []

/-- The line has a line end at its end. -/
def Ended (line : List Char) : Prop :=
  ∃ a e, line = a ++ e ∧ IsBreak e []

/-- The list cuts a text into lines. -/
structure Splits (text : List Char) (ls : List (List Char)) : Prop where
  flatten : ls.flatten = text
  ne_nil : ∀ line ∈ ls, line ≠ []
  closed : ∀ line ∈ ls, Closed line
  /-- A line that another one follows has a line end, and no pair is cut between the two. -/
  between : ls.IsChain fun line next => Ended line ∧ Uncut line next

theorem IsBreak.exists_cons (h : IsBreak e rest) : ∃ c e', e = c :: e' ∧ IsLineEnd c := by
  rcases h with rfl | rfl | ⟨rfl, -⟩
  · exact ⟨_, _, rfl, .inr rfl⟩
  · exact ⟨_, _, rfl, .inl rfl⟩
  · exact ⟨_, _, rfl, .inr rfl⟩

/-- Whether a carriage return ends a line depends on the next character only. -/
theorem IsBreak.congr {rest' : List Char} (h : IsBreak e rest)
    (hrest : e = ['\r'] → rest'.head? ≠ some '\n') :
    IsBreak e rest' :=
  h.imp_right (.imp_right fun hr => ⟨hr.1, hrest hr.1⟩)

theorem Ended.isLineEnd (h : Ended line) (hc : line.getLast? = some c) : IsLineEnd c := by
  obtain ⟨a, e, rfl, rfl | rfl | ⟨rfl, -⟩⟩ := h <;> simp_all [IsLineEnd, eq_comm]

/-! ## Steps -/

theorem Closed.of_break (h : IsBreak e rest) : Closed e := by
  intro a e' b heq he'
  rcases h with rfl | rfl | ⟨rfl, -⟩ <;> rcases he' with rfl | rfl | ⟨rfl, hb⟩ <;>
    rcases a with _ | ⟨x, _ | ⟨y, a⟩⟩ <;> simp_all
  -- what is left is the carriage return of a pair
  obtain rfl := heq
  exact absurd rfl hb

theorem Closed.cons (hc : ¬ IsLineEnd c) (h : Closed line) : Closed (c :: line) := by
  intro a e b hline he
  cases a with
  | nil =>
    obtain ⟨d, e', rfl, hd⟩ := he.exists_cons
    obtain rfl := (List.cons.inj hline).1
    exact absurd hd hc
  | cons d a => exact h a e b (List.cons.inj hline).2 he

/-- A line end in front of a text is one more line. -/
theorem Splits.cons_break (h : Splits rest ls) (he : IsBreak e rest) :
    Splits (e ++ rest) (e :: ls) where
  flatten := by rw [List.flatten_cons, h.flatten]
  ne_nil := by
    obtain ⟨c, e', rfl, -⟩ := he.exists_cons
    exact List.forall_mem_cons.mpr ⟨by simp, h.ne_nil⟩
  closed := List.forall_mem_cons.mpr ⟨.of_break he, h.closed⟩
  between := by
    cases ls with
    | nil => simp
    | cons line ls =>
      refine List.isChain_cons_cons.mpr ⟨⟨⟨[], e, rfl, he.congr (by simp)⟩, ?_⟩, h.between⟩
      obtain ⟨c, line, rfl⟩ := List.exists_cons_of_ne_nil (h.ne_nil line List.mem_cons_self)
      obtain rfl := h.flatten
      rcases he with rfl | rfl | ⟨rfl, hrest⟩ <;> simp_all [Uncut]

/-- Any other character in front of a text goes to the first line. -/
theorem Splits.cons_char (h : Splits rest ls)
    (hc : ¬ IsLineEnd c) : Splits (c :: rest) ((c :: ls.headD []) :: ls.tail) := by
  obtain ⟨rfl, hne, hclosed, hbetween⟩ := h
  cases ls with
  | nil =>
    have hnil : Closed [] := fun a e b h _ => by simp_all
    exact ⟨rfl, by simp, by simpa using hnil.cons hc, by simp⟩
  | cons line ls =>
    rw [List.forall_mem_cons] at hne hclosed
    refine ⟨rfl, List.forall_mem_cons.mpr ⟨by simp, hne.2⟩,
      List.forall_mem_cons.mpr ⟨hclosed.1.cons hc, hclosed.2⟩, ?_⟩
    cases ls with
    | nil => simp
    | cons next ls =>
      obtain ⟨⟨⟨a, e, hline, he⟩, hcut⟩, hrest⟩ := List.isChain_cons_cons.mp hbetween
      refine List.isChain_cons_cons.mpr ⟨⟨⟨c :: a, e, congrArg (c :: ·) hline, he⟩, ?_⟩, hrest⟩
      obtain ⟨d, line, rfl⟩ := List.exists_cons_of_ne_nil hne.1
      exact (uncut_cons_cons c d line next).mpr hcut

/-- A line end is a line of its own. -/
theorem lines_break (h : IsBreak e rest) : lines (e ++ rest) = e :: lines rest := by
  rcases h with rfl | rfl | ⟨rfl, hrest⟩
  · exact lines_pair rest
  · exact lines_lineEnd (.inl rfl) (by simp [Uncut])
  · exact lines_lineEnd (.inr rfl) (by simp [Uncut, hrest])

theorem splits_lines (text : List Char) : Splits text (lines text) := by
  induction text using lines.induct with
  | case1 => exact ⟨rfl, by simp, by simp, .nil⟩
  | case2 rest ih => exact ih.cons_break (.inl rfl)
  | case3 c rest hpair hc ih =>
    have he : IsBreak [c] rest := by
      rcases hc with rfl | rfl
      · exact .inr (.inl rfl)
      · refine .inr (.inr ⟨rfl, fun hrest => ?_⟩)
        obtain ⟨rest', rfl⟩ := List.head?_eq_some_iff.mp hrest
        exact hpair rest' rfl rfl
    have hlines : lines (c :: rest) = [c] :: lines rest := lines_break he
    exact hlines ▸ ih.cons_break he
  | case4 c rest hpair hc hnil ih => exact lines_cons hc ▸ ih.cons_char hc
  | case5 c rest hpair hc line others hlines ih => exact lines_cons hc ▸ ih.cons_char hc

/-! ## Uniqueness -/

/-- A line has a line end at its end or none at all. -/
theorem exists_break_of_closed (h : Closed line) :
    (∀ c ∈ line, ¬ IsLineEnd c) ∨ ∃ a e, line = a ++ e ∧ IsBreak e [] ∧ ∀ c ∈ a, ¬ IsLineEnd c := by
  induction line with
  | nil => exact .inl (by simp)
  | cons c line ih =>
    by_cases hc : IsLineEnd c
    · obtain ⟨e, b, heq, he⟩ : ∃ e b, c :: line = e ++ b ∧ IsBreak e b := by
        by_cases hpair : c = '\r' ∧ line.head? = some '\n'
        · obtain ⟨rest, rfl⟩ := List.head?_eq_some_iff.mp hpair.2
          exact ⟨['\r', '\n'], rest, by simp [hpair.1], .inl rfl⟩
        · exact ⟨[c], line, rfl, .inr (by rcases hc with rfl | rfl <;> simp_all)⟩
      obtain rfl := h [] e b heq he
      exact .inr ⟨[], e, by simpa using heq, he, by simp⟩
    · have hline : Closed line := fun a e b heq he => h (c :: a) e b (congrArg (c :: ·) heq) he
      rcases ih hline with hnone | ⟨a, e, rfl, he, ha⟩
      · exact .inl (List.forall_mem_cons.mpr ⟨hc, hnone⟩)
      · exact .inr ⟨c :: a, e, rfl, he, List.forall_mem_cons.mpr ⟨hc, ha⟩⟩

/-- Induction on the list: its first line is the first one of the text. -/
theorem Splits.eq_lines {text : List Char} (h : Splits text ls) : ls = lines text := by
  induction ls generalizing text with
  | nil => exact h.flatten ▸ rfl
  | cons line ls ih =>
    obtain ⟨rfl, hne, hclosed, hbetween⟩ := h
    rw [List.forall_mem_cons] at hne hclosed
    have hrest : ls = lines ls.flatten := ih ⟨rfl, hne.2, hclosed.2, hbetween.tail⟩
    rw [List.flatten_cons]
    rcases exists_break_of_closed hclosed.1 with hnone | ⟨a, e, rfl, he, ha⟩
    · -- without a line end this is the last line
      cases ls with
      | nil =>
        rw [List.flatten_nil, lines_append hnone hne.1]
        simp
      | cons next ls =>
        obtain ⟨a, e, rfl, he⟩ := (List.isChain_cons_cons.mp hbetween).1.1
        obtain ⟨c, e', rfl, hc⟩ := he.exists_cons
        exact absurd hc (hnone c (by simp))
    · have hbreak : IsBreak e ls.flatten := he.congr <| by
        rintro rfl
        cases ls with
        | nil => simp
        | cons next ls =>
          obtain ⟨c, next, rfl⟩ := List.exists_cons_of_ne_nil (hne.2 _ List.mem_cons_self)
          simpa [Uncut] using (List.isChain_cons_cons.mp hbetween).1.2
      rw [List.append_assoc, Source.lines_append_lineEnd ha (lines_break hbreak), ← hrest]

/-- **The lines of a text are the one list that cuts it at its line ends.** They fulfil the
conditions, no character but a line feed and a carriage return ends a line that another one follows,
and no other list fulfils the conditions. -/
theorem lines_unique_split (text : List Char) :
    Splits text (lines text) ∧
    (∀ c, ¬ IsLineEnd c → (lines text).IsChain fun line _ => line.getLast? ≠ some c) ∧
    ∀ ls, Splits text ls → ls = lines text := by
  refine ⟨splits_lines text, fun c hc => ?_, fun ls h => h.eq_lines⟩
  exact (splits_lines text).between.imp fun line next h hlast => hc (h.1.isLineEnd hlast)

end Addon.Text
